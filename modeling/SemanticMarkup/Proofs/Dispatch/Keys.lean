import SemanticMarkup.Proofs.Dispatch.Requests
import SemanticMarkup.Proofs.Dispatch.Termination

namespace SemanticMarkup
open Walk

-- What a semantic tree is made of: elements and texts, whatever their tags are.
def Node.Genuine (n : Node) : Prop := n.isElement = true ∨ ∃ leaf, n = .text leaf

namespace Dispatch
variable {κ σ : Type} {perform : κ → Handler κ σ} {r : Registry κ}

-- The handlers that run when these are to serve a node: all of them, or those up to the first one
-- that fails.
def runners (perform : κ → Handler κ σ) : List (Entry κ) → Node × Setting κ σ → List (Entry κ)
  | [], _ => []
  | e :: rest, (n, s) =>
    match (perform e.handler).run.run (n, s) with
    | (.ok answer, left, s) => e :: runners perform rest (answer.getD left, s.time e.owner)
    | (.error _, _) => [e]

-- The handlers that run at the place where a walk stands, on the node that it has come to or on what
-- has been put there since. Nothing runs on a node that is too deep.
def Standing.ran (perform : κ → Handler κ σ) (here : Standing κ σ) : List (Entry κ) :=
  if maxDepth < here.frames.length then []
  else runners perform (here.dispatcher.ask here.node.question).1 (here.node, here.setting)

-- What the key of a registration says about the nodes that its handler is for.
def Registration.Fits (g : Registration κ) (n : Node) : Prop :=
  (g.key = textKey → ∃ leaf, n = .text leaf) ∧
    (g.key ≠ textKey → n.isElement = true ∧ (g.key ≠ elementKey → n.tag = .text g.key))

def Masked (n : Node) : Prop := n.isElement = true ∧ n.tag = .text textKey

-- Handlers that put nothing into a tree that is neither an element nor a text.
def Truthful (perform : κ → Handler κ σ) : Prop :=
  ∀ h n s answer left after, Everywhere Node.Genuine n →
    (perform h).run.run (n, s) = (.ok answer, left, after) →
      Everywhere Node.Genuine (answer.getD left)

theorem runners_prefix (entries : List (Entry κ)) (n : Node) (s : Setting κ σ) :
    runners perform entries (n, s) <+: entries := by
  induction entries generalizing n s with
  | nil => exact List.nil_prefix
  | cons e rest ih =>
    rw [runners]
    rcases (perform e.handler).run.run (n, s) with ⟨f | answer, left, after⟩
    · exact ⟨rest, rfl⟩
    · exact (List.prefix_cons_inj e).mpr (ih _ _)

theorem runners_all {entries : List (Entry κ)} {n left : Node} {s after : Setting κ σ}
    (served : serve perform entries (n, s) = (.ok (), left, after)) :
    runners perform entries (n, s) = entries := by
  induction entries generalizing n s with
  | nil => rfl
  | cons e rest ih =>
    rw [serve] at served
    rw [runners]
    rcases ran : (perform e.handler).run.run (n, s) with ⟨f | _ | other, m, t⟩ <;> rw [ran] at served
    · cases served
    · exact congrArg (e :: ·) (ih served)
    · exact congrArg (e :: ·) (ih served)

theorem serve_recorded (perform : κ → Handler κ σ) (entries : List (Entry κ)) (n : Node) (s : Setting κ σ)
    (earlier : List (Call κ)) :
    ∃ calls : List (Call κ),
      calls.map Call.handler = (runners perform entries (n, s)).map Entry.handler ∧
      serve (recorded perform) entries (n, s.sharing (s.shared, earlier)) =
        ((serve perform entries (n, s)).1, (serve perform entries (n, s)).2.1,
          (serve perform entries (n, s)).2.2.sharing
            ((serve perform entries (n, s)).2.2.shared, earlier ++ calls)) := by
  induction entries generalizing n s earlier with
  | nil => exact ⟨[], rfl, by simp [serve]⟩
  | cons e rest ih =>
    rw [serve, serve, runners]
    rcases ran : (perform e.handler).run.run (n, s) with ⟨answer, left, after⟩
    rw [run_recorded perform earlier ran]
    have behind : ∀ m, ∃ calls : List (Call κ),
        calls.map Call.handler = e.handler ::
          (runners perform rest (m, after.time e.owner)).map Entry.handler ∧
        serve (recorded perform) rest
            (m, (after.sharing (after.shared, earlier ++ [⟨e.handler, n⟩])).time e.owner) =
          ((serve perform rest (m, after.time e.owner)).1,
            (serve perform rest (m, after.time e.owner)).2.1,
            (serve perform rest (m, after.time e.owner)).2.2.sharing
              ((serve perform rest (m, after.time e.owner)).2.2.shared, earlier ++ calls)) := by
      intro m
      obtain ⟨calls, named, told⟩ := ih m (after.time e.owner) (earlier ++ [⟨e.handler, n⟩])
      refine ⟨⟨e.handler, n⟩ :: calls, by rw [List.map_cons, named], ?_⟩
      rw [List.append_assoc] at told
      exact told
    rcases answer with f | _ | other
    · exact ⟨[⟨e.handler, n⟩], rfl, rfl⟩
    · exact behind left
    · exact behind other

theorem genuine_serve (truthful : Truthful perform) {entries : List (Entry κ)} {n left : Node}
    {s after : Setting κ σ} (genuine : Everywhere Node.Genuine n)
    (served : serve perform entries (n, s) = (.ok (), left, after)) :
    Everywhere Node.Genuine left := by
  induction entries generalizing n s with
  | nil =>
    cases served
    exact genuine
  | cons e rest ih =>
    rw [serve] at served
    rcases ran : (perform e.handler).run.run (n, s) with ⟨f | _ | other, m, t⟩ <;> rw [ran] at served
    · cases served
    · exact ih (truthful _ _ _ _ _ _ genuine ran) served
    · exact ih (truthful _ _ _ _ _ _ genuine ran) served

-- All that is still to be visited is part of a semantic tree: the node at hand, and what waits beside
-- it and beside the nodes above it.
structure Standing.Ahead (here : Standing κ σ) : Prop where
  node : Everywhere Node.Genuine here.node
  waiting : ∀ f ∈ here.frames, ∀ n ∈ f.waiting, Everywhere Node.Genuine n

structure Standing.Serves (here : Standing κ σ) (r : Registry κ) : Prop where
  registry : here.dispatcher.registry = r
  current : here.dispatcher.Current

theorem ahead_advance {n next : Node} {frames onward : List Frame}
    (waiting : ∀ f ∈ frames, ∀ m ∈ f.waiting, Everywhere Node.Genuine m)
    (step : advance n frames = .visit next onward) :
    Everywhere Node.Genuine next ∧ ∀ f ∈ onward, ∀ m ∈ f.waiting, Everywhere Node.Genuine m := by
  induction frames generalizing n with
  | nil => cases step
  | cons f frames ih =>
    obtain ⟨beside, above⟩ := List.forall_mem_cons.mp waiting
    simp only [advance] at step
    split at step
    · exact ih above step
    · rename_i first rest remains
      cases step
      rw [remains] at beside
      obtain ⟨one, others⟩ := List.forall_mem_cons.mp beside
      exact ⟨one, List.forall_mem_cons.mpr ⟨others, above⟩⟩

namespace Standing
variable {here next : Standing κ σ}

theorem ahead_turn (truthful : Truthful perform) (ahead : here.Ahead)
    (step : here.turn perform = .on next) : next.Ahead := by
  unfold turn at step
  split at step
  · cases step
  · dsimp only at step
    unfold served at step
    split at step
    · cases step
    · rename_i left after ran
      have genuine := genuine_serve truthful ahead.node ran
      split at step
      · rename_i child rest below
        cases step
        have inside : ∀ c ∈ left.children, Everywhere Node.Genuine c := genuine.inside
        rw [below] at inside
        obtain ⟨one, others⟩ := List.forall_mem_cons.mp inside
        exact ⟨one, List.forall_mem_cons.mpr ⟨others, ahead.waiting⟩⟩
      · split at step
        · rename_i onward behind
          cases step
          obtain ⟨one, others⟩ := ahead_advance ahead.waiting behind
          exact ⟨one, others⟩
        · cases step

theorem serves_turn (serves : here.Serves r) (step : here.turn perform = .on next) :
    next.Serves r := by
  have kept : (here.dispatcher.ask here.node.question).2.registry = r :=
    (here.dispatcher.registry_ask _).trans serves.registry
  have current := Dispatcher.current_ask serves.current here.node.question
  unfold turn at step
  split at step
  · cases step
  · dsimp only at step
    unfold served at step
    split at step
    · cases step
    · split at step
      · cases step
        exact ⟨kept, current⟩
      · split at step
        · cases step
          exact ⟨kept, current⟩
        · cases step

theorem kept_turns {P : Standing κ σ → Prop}
    (keeps : ∀ here next, P here → here.turn perform = .on next → P next) {k : Nat} (holds : P here)
    (comes : turns perform k here = .on next) : P next := by
  induction k generalizing here with
  | zero =>
    cases comes
    exact holds
  | succ k ih =>
    rw [turns] at comes
    cases step : here.turn perform with
    | ended ending =>
      rw [step] at comes
      cases comes
    | on between =>
      rw [step] at comes
      exact ih (keeps here between holds step) comes

theorem serves_comes {d : Dispatcher κ} {ctx : Context κ σ} {k : Nat} (current : d.Current)
    (comes : turns perform k (.start d ctx) = .on here) : here.Serves d.registry :=
  kept_turns (P := fun there => there.Serves d.registry)
    (fun _ _ serves step => serves_turn serves step) ⟨rfl, current⟩ comes

theorem ran_prefix {done : List (Registration κ)} (holds : r.Holds done) (serves : here.Serves r) :
    here.ran perform <+: Registration.entries (fun g => g.serves here.node) done := by
  unfold ran
  split
  · exact List.nil_prefix
  · rw [Dispatcher.ask_node serves.current, serves.registry, Registry.forNode_eq holds]
    exact runners_prefix _ _ _

end Standing

theorem mem_entries {picked : Registration κ → Bool} {done : List (Registration κ)} {e : Entry κ}
    (member : e ∈ Registration.entries picked done) :
    ∃ g, done[e.turn]? = some g ∧ e = Registration.entry (g, e.turn) ∧ picked g = true := by
  obtain ⟨⟨g, i⟩, among, rfl⟩ := List.mem_map.mp member
  obtain ⟨numbered, chosen⟩ := List.mem_filter.mp among
  exact ⟨g, List.mk_mem_zipIdx_iff_getElem?.mp numbered, rfl, chosen⟩

theorem fits_or_masked {g : Registration κ} {n : Node} (genuine : n.Genuine) (serves : g.serves n = true) :
    g.Fits n ∨ g.key = textKey ∧ Masked n := by
  unfold Registration.serves at serves
  rcases genuine with element | ⟨leaf, rfl⟩
  · rw [if_pos element, Bool.or_eq_true, beq_iff_eq] at serves
    have tagged : g.key ≠ elementKey → n.tag = .text g.key := by
      intro other
      have named := serves.resolve_left other
      cases tag : n.tag with
      | text name =>
        rw [tag] at named
        simpa [Value.isText, Value.text?] using named
      | _ =>
        rw [tag] at named
        cases named
    by_cases text : g.key = textKey
    · have other : g.key ≠ elementKey := by
        rw [text]
        decide
      exact .inr ⟨text, element, text ▸ tagged other⟩
    · exact .inl ⟨fun same => absurd same text, fun _ => ⟨element, tagged⟩⟩
  · have text : g.key = textKey := by
      simpa [Node.isElement, Node.kind, Value.isText, Value.text?] using serves
    exact .inl ⟨fun _ => ⟨leaf, rfl⟩, fun other => absurd text other⟩

theorem not_fits_of_masked {g : Registration κ} {n : Node} (text : g.key = textKey) (masked : Masked n) :
    ¬g.Fits n := by
  intro fits
  obtain ⟨leaf, rfl⟩ := fits.1 text
  cases masked.1

def afterAll {ω : Type} (request : ω → Request κ σ → Reply κ σ × ω) (state : ω)
    (requests : List (Request κ σ)) : ω :=
  requests.foldl (fun state q => (request state q).2) state

theorem Dispatcher.keeps_afterAll (perform : κ → Handler κ σ) {d : Dispatcher κ} {log : Log κ}
    (keeps : d.Keeps log) (requests : List (Request κ σ)) :
    (afterAll (Dispatcher.request perform) d requests).Keeps
      (afterAll (Log.request perform) log requests) := by
  induction requests generalizing d log with
  | nil => exact keeps
  | cons q rest ih => exact ih (Dispatcher.request_kept perform keeps q).2

namespace Standing

def watched (perform : κ → Handler κ σ) (here : Standing κ σ) :
    Except Fault Unit × Node × Setting κ (σ × List (Call κ)) :=
  serve (recorded perform) (here.dispatcher.ask here.node.question).1
    (here.node, here.setting.sharing (here.setting.shared, []))

def Passes (perform : κ → Handler κ σ) (here : Standing κ σ) : Prop :=
  ∀ ending f, here.turn perform = .ended ending → ending.outcome ≠ .error f

variable {here : Standing κ σ}

theorem ran_watched (shallow : here.frames.length ≤ maxDepth) :
    (here.watched perform).2.2.shared.2.map Call.handler = (here.ran perform).map Entry.handler := by
  obtain ⟨calls, named, told⟩ := serve_recorded perform
    (here.dispatcher.ask here.node.question).1 here.node here.setting []
  rw [watched, told, ran, if_neg (Nat.not_lt.mpr shallow), ← named]
  rfl

theorem ran_all {done : List (Registration κ)} (holds : r.Holds done) (serves : here.Serves r)
    (passes : here.Passes perform) :
    here.ran perform = Registration.entries (fun g => g.serves here.node) done := by
  have asked : (here.dispatcher.ask here.node.question).1 =
      Registration.entries (fun g => g.serves here.node) done := by
    rw [Dispatcher.ask_node serves.current, serves.registry, Registry.forNode_eq holds]
  have shallow : ¬maxDepth < here.frames.length := fun deep =>
    passes _ _ (if_pos deep) rfl
  rw [ran, if_neg shallow, ← asked]
  match served : serve perform (here.dispatcher.ask here.node.question).1
      (here.node, here.setting) with
  | (.ok (), left, after) => exact runners_all served
  | (.error f, left, after) =>
    have failed : here.turn perform = .ended ⟨.error f, plugAll here.frames left, after,
        (here.dispatcher.ask here.node.question).2⟩ := by
      rw [turn, if_neg shallow]
      dsimp only
      rw [served, Standing.served]
    exact absurd rfl (passes _ f failed)

end Standing

-- Wherever a walk stands, and whatever a dispatcher has been asked before, the handlers that run there
-- are registered for the node that the walk has come to: under the key of texts for a text, under the
-- key of all elements for an element, and under any other key for an element with that tag. The one
-- way around is an element whose tag is the key of texts: it is served like a text, and exactly there
-- a handler runs that is not registered for its node. Unless the walk fails at a place, all run
-- that serve its node, in the order of registration.
theorem runs_under_keys (truthful : Truthful perform) (requests : List (Request κ σ))
    {ctx : Context κ σ} (genuine : Everywhere Node.Genuine ctx.root) {k : Nat} {here : Standing κ σ}
    (comes : Standing.turns perform k
      (.start (afterAll (Dispatcher.request perform) .empty requests) ctx) = .on here) :
    ∃ done, (afterAll (Log.request perform) ⟨none, []⟩ requests).done = done ∧
      (∀ e ∈ here.ran perform, ∃ g, done[e.turn]? = some g ∧ e = Registration.entry (g, e.turn) ∧
        (g.Fits here.node ∨ g.key = textKey ∧ Masked here.node)) ∧
      ((∀ e ∈ here.ran perform, ∀ g, done[e.turn]? = some g → g.Fits here.node) ↔
        (Masked here.node → ∀ e ∈ here.ran perform, ∀ g, done[e.turn]? = some g →
          g.key ≠ textKey)) ∧
      (here.Passes perform →
        here.ran perform = Registration.entries (fun g => g.serves here.node) done) ∧
      (here.frames.length ≤ maxDepth →
        (here.watched perform).2.2.shared.2.map Call.handler =
          (here.ran perform).map Entry.handler) := by
  have keeps := Dispatcher.keeps_afterAll perform Dispatcher.keeps_empty requests
  have serves := Standing.serves_comes keeps.current comes
  have ahead := Standing.kept_turns (P := Standing.Ahead)
    (fun _ _ ahead step => Standing.ahead_turn truthful ahead step)
    ⟨genuine, by simp [Standing.start]⟩ comes
  have registered : ∀ e ∈ here.ran perform, ∃ g,
      (afterAll (Log.request perform) ⟨none, []⟩ requests).done[e.turn]? = some g ∧
        e = Registration.entry (g, e.turn) ∧
        (g.Fits here.node ∨ g.key = textKey ∧ Masked here.node) := by
    intro e runs
    obtain ⟨g, numbered, same, picked⟩ :=
      mem_entries ((Standing.ran_prefix keeps.holds serves).subset runs)
    exact ⟨g, numbered, same, fits_or_masked ahead.node.here picked⟩
  refine ⟨_, rfl, registered, ⟨fun fits masked e runs g numbered text => ?_,
    fun apart e runs g numbered => ?_⟩, Standing.ran_all keeps.holds serves, Standing.ran_watched⟩
  · exact not_fits_of_masked text masked (fits e runs g numbered)
  · obtain ⟨other, same, _, either⟩ := registered e runs
    cases numbered.symm.trans same
    rcases either with fits | ⟨text, masked⟩
    · exact fits
    · exact absurd text (apart masked e runs g numbered)

def posing : Node := .element ⟨.text textKey, .record [], .null, .absent, .null⟩ []
def plainText : Node := .text ⟨.text "x", .null, .null, .null, .null⟩
def masquerade : Context Bool Unit :=
  ⟨⟨.node .root [], [], .null, none, none, ()⟩,
    .element ⟨.text "root", .record [], .null, .absent, .null⟩ [posing, plainText]⟩

def reserved : List (Request Bool Unit) :=
  [.register (.text textKey) (some true), .register (.text elementKey) (some false)]

theorem truthful_watching : Truthful watching := by
  intro h n s answer left after genuine ran
  cases ran
  exact genuine

theorem masquerade_genuine : Everywhere Node.Genuine masquerade.root := by
  refine everywhere_element.mpr ⟨.inl rfl, fun c member => ?_⟩
  rcases List.mem_cons.mp member with rfl | later
  · exact .of_childless rfl (.inl rfl)
  · obtain rfl := List.mem_singleton.mp later
    exact .of_childless rfl (.inr ⟨_, rfl⟩)

theorem serve_watching (entries : List (Entry Bool)) (n : Node) :
    serve watching entries (n, masquerade.toSetting) = (.ok (), n, masquerade.toSetting) := by
  induction entries with
  | nil => rfl
  | cons e rest ih => exact ih

theorem comes_to_posing :
    ∃ here behind,
      Standing.turns watching 1
        (.start (afterAll (Dispatcher.request watching) .empty reserved) masquerade) = .on here ∧
      Standing.turns watching 2
        (.start (afterAll (Dispatcher.request watching) .empty reserved) masquerade) = .on behind ∧
      here.turn watching = .on behind ∧ here.node = posing ∧ behind.node = plainText := by
  have keeps := Dispatcher.keeps_afterAll watching Dispatcher.keeps_empty reserved
  generalize afterAll (Dispatcher.request watching) .empty reserved = d at keeps ⊢
  let here : Standing Bool Unit := ⟨posing, [⟨masquerade.root, [], [plainText]⟩], masquerade.toSetting,
    (d.ask masquerade.root.question).2, 1⟩
  let behind : Standing Bool Unit := ⟨plainText, [⟨masquerade.root, [posing], []⟩], masquerade.toSetting,
    (here.dispatcher.ask posing.question).2, 2⟩
  have first : (Standing.start d masquerade).turn watching = .on here :=
    Standing.turn_current (.start d masquerade) (by simp [Standing.start]) rfl keeps.current
      (serve_watching _ _)
  have second : here.turn watching = .on behind :=
    Standing.turn_current here (show ¬maxDepth < 1 by decide) rfl (Dispatcher.current_ask keeps.current _)
      (serve_watching _ _)
  refine ⟨here, behind, ?_, ?_, second, rfl, rfl⟩
  · rw [Standing.turns, first]
    rfl
  · rw [Standing.turns, first]
    dsimp only
    rw [Standing.turns, second]
    rfl

theorem plainText_kept :
    Truthful watching ∧ Everywhere Node.Genuine masquerade.root ∧
      ∃ here, Standing.turns watching 2
          (.start (afterAll (Dispatcher.request watching) .empty reserved) masquerade) = .on here ∧
        here.node = plainText ∧
        ∀ e ∈ here.ran watching, ∃ g, e = Registration.entry (g, e.turn) ∧ g.Fits here.node := by
  obtain ⟨_, here, _, comes, _, _, same⟩ := comes_to_posing
  obtain ⟨done, _, registered, _⟩ :=
    runs_under_keys truthful_watching reserved masquerade_genuine comes
  refine ⟨truthful_watching, masquerade_genuine, here, comes, same, fun e runs => ?_⟩
  obtain ⟨g, _, entry, fits | ⟨_, masked⟩⟩ := registered e runs
  · exact ⟨g, entry, fits⟩
  · rw [same] at masked
    cases masked.1

theorem posing_captured :
    ∃ here, Standing.turns watching 1
        (.start (afterAll (Dispatcher.request watching) .empty reserved) masquerade) = .on here ∧
      here.node = posing ∧ here.node.isElement = true ∧
      (here.ran watching).map Entry.handler = [true, false] ∧
      (afterAll (Log.request watching) ⟨none, []⟩ reserved).done =
        [⟨textKey, "<anonymous>", true⟩, ⟨elementKey, "<anonymous>", false⟩] := by
  obtain ⟨here, behind, comes, _, step, same, _⟩ := comes_to_posing
  have passes : here.Passes watching := fun ending f ended => by
    rw [step] at ended
    cases ended
  have keeps := Dispatcher.keeps_afterAll watching Dispatcher.keeps_empty reserved
  have serves := Standing.serves_comes keeps.current comes
  refine ⟨here, comes, same, by rw [same]; rfl, ?_, rfl⟩
  rw [Standing.ran_all keeps.holds serves passes, same]
  rfl

end Dispatch
end SemanticMarkup
