import SemanticMarkup.Proofs.Attribution.Signatures

namespace SemanticMarkup

namespace Decimal.Binary64

theorem positional_ne_nil (digits : List Char) (exponent : Int) : positional digits exponent ≠ [] := by
  unfold positional
  dsimp only
  split
  · simp
  · split <;> simp

theorem withExponent_ne_nil (digits : List Char) (leading : Int) : withExponent digits leading ≠ [] := by
  simp [withExponent]

theorem text_ne_empty (x : Binary64) : x.text ≠ "" := by
  cases x with
  | infinite s => cases s <;> decide
  | nan => decide
  | finite s m e =>
    have signed : ∀ (sign : String) {body : List Char}, body ≠ [] → sign ++ String.ofList body ≠ "" := by
      intro sign body some
      simp [some]
    unfold text
    dsimp only
    split
    · cases s <;> decide
    · refine signed _ ?_
      split
      · exact positional_ne_nil _ _
      · exact withExponent_ne_nil _ _

end Decimal.Binary64

theorem Value.shown_ne_empty {v : Value} (counts : v.isTrue = true) : v.shown ≠ "" := by
  cases v with
  | null => cases counts
  | flag b => cases b <;> decide
  | whole n => exact Text.whole_ne_empty n
  | real x => exact x.text_ne_empty
  | text s => simpa [isTrue, shown] using counts
  | list items => simp [shown, quoted]
  | record fields => simp [shown, quoted]

namespace Action
variable {κ σ α β : Type} {action : Action κ σ α}

theorem registers_of_kept (kept : ∀ ctx, (action.exec ctx).2.collecting = ctx.collecting) :
    action.Registers := by
  intro ctx r collecting
  exact ⟨[], (kept ctx).trans collecting⟩

theorem Registers.bind {next : α → Action κ σ β} (first : action.Registers)
    (others : ∀ a, (next a).Registers) : (action >>= next).Registers := by
  intro ctx r collecting
  obtain ⟨handlers, filled⟩ := first ctx r collecting
  rw [exec_bind]
  rcases ran : action.exec ctx with ⟨result, after⟩
  rw [ran] at filled
  cases result with
  | error f => exact ⟨handlers, filled⟩
  | ok a =>
    obtain ⟨more, whole⟩ := others a after _ filled
    refine ⟨handlers ++ more, whole.trans (congrArg some ?_)⟩
    exact (List.foldl_append).symm

theorem registers_register (key : Value) (handler : Option κ) :
    (register key handler : Action κ σ Unit).Registers := by
  intro ctx r collecting
  unfold register ofSetting
  rw [exec_get_bind]
  simp only [Setting.register, collecting]
  cases added : r.register key handler with
  | error f => exact ⟨[], collecting⟩
  | ok filled =>
    obtain ⟨name, given, _, _, rfl⟩ := Dispatch.Registry.insert_of_register added
    exact ⟨[(name, given)], rfl⟩

end Action

namespace Plugin
variable {κ σ : Type}

theorem name_ofDeclaration {d : PluginDeclaration κ σ} {p : Plugin κ σ}
    (declared : ofDeclaration d = .ok p) : p.name ≠ "" := by
  unfold ofDeclaration at declared
  dsimp only at declared
  split at declared
  · cases declared
  · rename_i named
    split at declared
    · cases declared
    · cases declared
    · obtain ⟨phase, _, ordered⟩ := ok_of_bind declared
      obtain ⟨order, _, made⟩ := ok_of_bind ordered
      cases made
      exact Value.shown_ne_empty (by simpa using named)

end Plugin

namespace Passes
variable {ε σ : Type} {name : String} {order : Int} {apply : Action (HandlerName ε) σ Unit}

theorem sound_plain {phase : Phase} (named : name ≠ "") : (plain name phase order apply).Sound :=
  ⟨named, nofun⟩

theorem sound_batched {handlers : Action (HandlerName ε) σ (List (Value × Option (HandlerName ε)))}
    (named : name ≠ "") (registers : handlers.Registers) : (batched name order apply handlers).Sound := by
  refine ⟨named, fun action given => ?_⟩
  cases given
  exact registers

theorem builtin_sound : ∀ p ∈ (builtin : List (Plugin (HandlerName ε) σ)), p.Sound := by
  have kept : ∀ handler : Context (HandlerName ε) σ → List (Value × Option (HandlerName ε)),
      (do return handler (← get) : Action (HandlerName ε) σ _).Registers :=
    fun handler => Action.registers_of_kept fun ctx => rfl
  intro p member
  simp only [builtin, List.mem_cons, List.not_mem_nil, or_false] at member
  rcases member with rfl | rfl | rfl | rfl | rfl | rfl | rfl | rfl
  · exact sound_plain (by decide)
  · exact sound_plain (by decide)
  · exact sound_plain (by decide)
  · exact sound_plain (by decide)
  · exact sound_plain (by decide)
  · exact sound_batched (by decide) (kept _)
  · exact sound_batched (by decide) (kept fun _ => _)
  · exact sound_batched (by decide) (kept fun _ => _)

end Passes
end SemanticMarkup
