import SemanticMarkup.Proofs.Dispatch.Calls

namespace SemanticMarkup.Dispatch
variable {κ σ : Type}

-- What can be asked of a dispatcher, in any order: that a plugin registers from now on, or nobody
-- in particular, that a handler is registered, that the handlers of a node are looked up, that a
-- tree is walked, or that all handlers are forgotten.
inductive Request (κ σ : Type) where
  | registrant (plugin : Option String)
  | register (key : Value) (handler : Option κ)
  | lookup (n : Node)
  | walk (ctx : Context κ σ)
  | clear

inductive Reply (κ σ : Type) where
  | done
  | refused (f : Fault)
  | handlers (found : List (String × κ))
  | walked (outcome : Except Fault Nat) (after : Context κ σ)

def Dispatcher.request (perform : κ → Handler κ σ) (d : Dispatcher κ) :
    Request κ σ → Reply κ σ × Dispatcher κ
  | .registrant plugin => (.done, { d with registry := { d.registry with registrant := plugin } })
  | .register key handler =>
    match d.register key handler with
    | (.ok (), d) => (.done, d)
    | (.error f, d) => (.refused f, d)
  | .lookup n =>
    match d.ask n.question with
    | (entries, d) => (.handlers (entries.map fun e => (e.owner, e.handler)), d)
  | .walk ctx =>
    match d.run perform ctx with
    | (outcome, d, ctx) => (.walked outcome ctx, d)
  | .clear => (.done, d.clear)

-- What a dispatcher is to a caller: who registers, and the registrations since it was last cleared.
structure Log (κ : Type) where
  registrant : Option String
  done : List (Registration κ)

namespace Log

def owner (log : Log κ) : String :=
  match log.registrant with
  | none | some "" => "<anonymous>"
  | some plugin => plugin

def registration? (log : Log κ) : Value → Option κ → Option (Registration κ)
  | .text key, some handler => if key = "" then none else some ⟨key, log.owner, handler⟩
  | _, _ => none

def refusal (log : Log κ) (key : Value) : Fault :=
  .config ("Plugin " ++ Text.quotedForm log.owner ++ ": " ++
    match key.text? with
    | none | some "" => "dispatch key must be a non-empty string, got " ++ key.quoted
    | some _ => "handler for " ++ key.quoted ++ " is not callable")

-- Every reply is read off the registrations.
def request (perform : κ → Handler κ σ) (log : Log κ) : Request κ σ → Reply κ σ × Log κ
  | .registrant plugin => (.done, { log with registrant := plugin })
  | .register key handler =>
    match log.registration? key handler with
    | some g => (.done, { log with done := log.done ++ [g] })
    | none => (.refused (log.refusal key), log)
  | .lookup n =>
    (.handlers ((log.done.filter fun g => g.serves n).map fun g => (g.owner, g.handler)), log)
  | .walk ctx =>
    if log.done.isEmpty then (.walked (.ok 0) ctx, log)
    else
      match visit (serving perform log.done) 0 ctx.root ctx.toSetting with
      | ⟨outcome, root, s, _⟩ => (.walked outcome { s with root := root }, log)
  | .clear => (.done, { log with done := [] })

end Log

def replies {ω : Type} (request : ω → Request κ σ → Reply κ σ × ω) : ω → List (Request κ σ) →
    List (Reply κ σ)
  | _, [] => []
  | state, q :: rest => (request state q).1 :: replies request (request state q).2 rest

-- A dispatcher stands for a log: its registry holds the registrations, and what it remembers is what
-- the registry would answer now.
structure Dispatcher.Keeps (d : Dispatcher κ) (log : Log κ) : Prop where
  holds : d.registry.Holds log.done
  registrant : d.registry.registrant = log.registrant
  current : d.Current

namespace Dispatcher
variable {d : Dispatcher κ} {log : Log κ}

theorem keeps_empty : (empty : Dispatcher κ).Keeps ⟨none, []⟩ :=
  ⟨Registry.holds_empty, rfl, current_ofRegistry _⟩

theorem owner_eq {r : Registry κ} (same : r.registrant = log.registrant) : r.owner = log.owner := by
  unfold Registry.owner Log.owner
  rw [same]
  split
  · rename_i none
    rw [none]
    rfl
  · rename_i empty
    rw [empty]
    rfl
  · rename_i plugin named given
    rw [given]
    have some : plugin ≠ "" := named
    simp [Option.filter, some]

theorem register_refused (same : d.registry.registrant = log.registrant) {key : Value}
    {handler : Option κ} (wrong : log.registration? key handler = none) :
    d.register key handler = (.error (log.refusal key), d) := by
  have refused : d.registry.register key handler = .error (log.refusal key) := by
    unfold Registry.register Log.refusal
    rw [owner_eq same]
    cases key with
    | text name =>
      by_cases empty : name = ""
      · subst empty
        rfl
      · cases handler with
        | none => simp [Value.text?]
        | some h => simp [Log.registration?, empty] at wrong
    | _ => rfl
  rw [register, refused]

theorem register_accepted {key : Value} {handler : Option κ} {g : Registration κ}
    (right : log.registration? key handler = some g) :
    g.owner = log.owner ∧
      d.register key handler = (.ok (), ofRegistry (d.registry.insert g.key g.handler)) := by
  cases key with
  | text name =>
    cases handler with
    | none => cases right
    | some h =>
      by_cases empty : name = ""
      · simp [Log.registration?, empty] at right
      · simp only [Log.registration?, if_neg empty, Option.some.injEq] at right
        subst right
        refine ⟨rfl, ?_⟩
        simp [register, Registry.register]
  | _ => cases right

variable (perform : κ → Handler κ σ)

theorem register_kept (keeps : d.Keeps log) (key : Value) (handler : Option κ) :
    (d.request perform (.register key handler)).1 = (log.request perform (.register key handler)).1 ∧
      (d.request perform (.register key handler)).2.Keeps
        (log.request perform (.register key handler)).2 := by
  rw [request, Log.request]
  cases given : log.registration? key handler with
  | none =>
    rw [register_refused keeps.registrant given]
    exact ⟨rfl, keeps⟩
  | some g =>
    obtain ⟨owner, accepted⟩ := register_accepted (d := d) given
    rw [accepted]
    have held := Registry.holds_insert keeps.holds g.key g.handler
    rw [owner_eq keeps.registrant, ← owner] at held
    exact ⟨rfl, held, keeps.registrant, current_ofRegistry _⟩

theorem lookup_kept (keeps : d.Keeps log) (n : Node) :
    (d.request perform (.lookup n)).1 = (log.request perform (.lookup n)).1 ∧
      (d.request perform (.lookup n)).2.Keeps (log.request perform (.lookup n)).2 := by
  rw [request, Log.request]
  dsimp only
  rw [ask_node keeps.current, Registry.forNode_eq keeps.holds, Registration.pairs_entries]
  refine ⟨rfl, ?_, ?_, current_ask keeps.current _⟩
  · rw [registry_ask]
    exact keeps.holds
  · rw [registry_ask]
    exact keeps.registrant

theorem walk_kept (keeps : d.Keeps log) (ctx : Context κ σ) :
    (d.request perform (.walk ctx)).1 = (log.request perform (.walk ctx)).1 ∧
      (d.request perform (.walk ctx)).2.Keeps (log.request perform (.walk ctx)).2 := by
  rw [request, Log.request]
  cases idle : log.done.isEmpty with
  | true =>
    have none : d.registry.count = 0 := by
      rw [keeps.holds.count, List.isEmpty_iff.mp idle]
      rfl
    rw [run, if_pos none]
    exact ⟨rfl, keeps⟩
  | false =>
    have some : d.registry.count ≠ 0 := by
      rw [keeps.holds.count]
      exact fun none => by simp [List.eq_nil_of_length_eq_zero none] at idle
    obtain ⟨after, registry, current, ran⟩ := run_walk perform rfl keeps.current some ctx
    have agrees : Agrees perform d.registry (serving perform log.done) :=
      agrees_handled perform keeps.holds
    rw [ran, walk_top agrees]
    generalize visit (serving perform log.done) 0 ctx.root ctx.toSetting = report
    refine ⟨rfl, ?_, ?_, current⟩
    · rw [registry]
      exact keeps.holds
    · rw [registry]
      exact keeps.registrant

theorem request_kept (keeps : d.Keeps log) (q : Request κ σ) :
    (d.request perform q).1 = (log.request perform q).1 ∧
      (d.request perform q).2.Keeps (log.request perform q).2 := by
  cases q with
  | registrant plugin =>
    exact ⟨rfl, ⟨keeps.holds.count, keeps.holds.entries⟩, rfl, keeps.current⟩
  | register key handler => exact register_kept perform keeps key handler
  | lookup n => exact lookup_kept perform keeps n
  | walk ctx => exact walk_kept perform keeps ctx
  | clear => exact ⟨rfl, Registry.holds_clear _, keeps.registrant, current_ofRegistry _⟩

theorem replies_kept (keeps : d.Keeps log) (requests : List (Request κ σ)) :
    replies (request perform) d requests = replies (Log.request perform) log requests := by
  induction requests generalizing d log with
  | nil => rfl
  | cons q rest ih =>
    obtain ⟨same, still⟩ := request_kept perform keeps q
    rw [replies, replies, same, ih still]

end Dispatcher

-- Whatever is asked of a dispatcher, and in whatever order, each reply can be read off the
-- registrations made since it was last cleared: a node gets the handlers that serve it, in the order
-- in which they were registered, and a walk calls them for each node that it comes to. What was
-- looked up before never shows. A registration that is refused changes nothing at all.
theorem requests_logged (perform : κ → Handler κ σ) (requests : List (Request κ σ)) :
    replies (Dispatcher.request perform) .empty requests =
        replies (Log.request perform) ⟨none, []⟩ requests ∧
      ∀ (d : Dispatcher κ) (log : Log κ) (key : Value) (handler : Option κ),
        d.registry.registrant = log.registrant → log.registration? key handler = none →
          d.register key handler = (.error (log.refusal key), d) :=
  ⟨Dispatcher.replies_kept perform Dispatcher.keeps_empty requests,
    fun _ _ _ _ same wrong => Dispatcher.register_refused same wrong⟩

def starred : Node := .element ⟨.text elementKey, .record [], .null, .absent, .null⟩ []

def inquiries : List (Request Bool Unit) :=
  [.register (.text elementKey) (some true), .lookup starred, .registrant (some "late"),
    .register (.text elementKey) (some false), .lookup starred, .register (.text "") (some true),
    .register (.text "view") none, .lookup starred, .clear, .lookup starred]

def watching : Bool → Handler Bool Unit := fun _ => ExceptT.mk fun site => (.ok none, site)

theorem inquiries_logged :
    replies (Dispatcher.request watching) .empty inquiries =
      [.done, .handlers [("<anonymous>", true)], .done, .done,
        .handlers [("<anonymous>", true), ("late", false)],
        .refused (.config "Plugin 'late': dispatch key must be a non-empty string, got ''"),
        .refused (.config "Plugin 'late': handler for 'view' is not callable"),
        .handlers [("<anonymous>", true), ("late", false)], .done, .handlers []] := by
  rw [(requests_logged watching inquiries).1]
  rfl

end SemanticMarkup.Dispatch
