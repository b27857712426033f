import SemanticMarkup.Dispatch.Dispatcher
import SemanticMarkup.Dispatch.Levels
import SemanticMarkup.Plugin

namespace SemanticMarkup.Dispatch
variable {κ σ : Type}

-- A node whose children are being walked: the node itself, the children that are finished, the
-- last one first, and those that wait.
structure Frame where
  parent : Node
  finished : List Node
  waiting : List Node

namespace Frame

def plug (f : Frame) (child : Node) : Node :=
  f.parent.withChildren (f.finished.reverse ++ child :: f.waiting)

end Frame

def plugAll : List Frame → Node → Node
  | [], n => n
  | f :: frames, n => plugAll frames (f.plug n)

-- What comes after a finished node: the next node in document order, or the end with the
-- finished tree.
inductive Turn where
  | visit (next : Node) (frames : List Frame)
  | finished (root : Node)

def advance (n : Node) : List Frame → Turn
  | [] => .finished n
  | f :: frames =>
    match f.waiting with
    | [] => advance (f.plug n) frames
    | next :: rest => .visit next (⟨f.parent, n :: f.finished, rest⟩ :: frames)

-- Lets the handlers of one node work on it in turn. Each one gets what the one before has left
-- in place of the node.
def serve (perform : κ → Handler κ σ) :
    List (Entry κ) → Node × Setting κ σ → Except Fault Unit × Node × Setting κ σ
  | [], (n, s) => (.ok (), n, s)
  | entry :: rest, (n, s) =>
    match (perform entry.handler).run.run (n, s) with
    | (.ok none, (n, s)) => serve perform rest (n, s.time entry.owner)
    | (.ok (some other), (_, s)) => serve perform rest (other, s.time entry.owner)
    | (.error f, (n, s)) => (.error (Plugin.blame entry.owner "capability" s.source f), n, s)

-- How many nodes wait at each depth, from the top down to what lies below the given frames.
def levels : List Frame → List Nat → List Nat
  | [], below => below
  | f :: frames, below => levels frames (0 :: (f.waiting.length + below.headD 0) :: below.tail)

theorem less_levels {n : Nat} (frames : List Frame) {a b : List Nat} (smaller : Levels.less n a b) :
    Levels.less (frames.length + n) (levels frames a) (levels frames b) := by
  induction frames generalizing n a b with
  | nil => simpa [levels] using smaller
  | cons f frames ih =>
    cases n with
    | zero => exact smaller.elim
    | succ n =>
      have next : Levels.less (n + 2) (0 :: (f.waiting.length + a.headD 0) :: a.tail)
          (0 :: (f.waiting.length + b.headD 0) :: b.tail) := by
        refine .inr ⟨rfl, ?_⟩
        rcases smaller with head | ⟨head, tail⟩
        · exact .inl (by simp only [List.headD_cons, List.tail_cons]; omega)
        · exact .inr ⟨by simp only [List.headD_cons, List.tail_cons]; omega, by simpa using tail⟩
      have := ih next
      simp only [List.length_cons, levels]
      rwa [show frames.length + 1 + (n + 1) = frames.length + (n + 2) by omega]

theorem less_advance {n next : Node} {frames onward : List Frame} {below : List Nat} {i : Nat}
    (step : advance n frames = .visit next onward) (waits : Levels.waitsAt i below) :
    Levels.less (frames.length + i + 1) (levels onward [1]) (levels frames below) := by
  induction frames generalizing n below i with
  | nil => cases step
  | cons f frames ih =>
    simp only [advance] at step
    split at step
    · rename_i none
      have deeper : Levels.waitsAt (i + 1) (0 :: (f.waiting.length + below.headD 0) :: below.tail) := by
        cases i with
        | zero =>
          show 0 < f.waiting.length + below.headD 0
          have : 0 < below.headD 0 := waits
          omega
        | succ i => exact waits
      have := ih step deeper
      simp only [levels, List.length_cons]
      rwa [show frames.length + 1 + i + 1 = frames.length + (i + 1) + 1 by omega]
    · rename_i head rest some
      cases step
      have smaller : Levels.less (i + 2) (0 :: (rest.length + 1) :: [])
          (0 :: (f.waiting.length + below.headD 0) :: below.tail) := by
        refine .inr ⟨rfl, ?_⟩
        simp only [List.tail_cons, some, List.length_cons]
        cases i with
        | zero =>
          have : 0 < below.headD 0 := waits
          exact .inl (by simp only [List.headD_cons]; omega)
        | succ i =>
          by_cases head : 0 < below.headD 0
          · exact .inl (by simp only [List.headD_cons]; omega)
          · exact .inr ⟨by simp only [List.headD_cons]; omega, Levels.less_of_waitsAt waits⟩
      have := less_levels frames smaller
      simp only [levels, List.length_cons, List.headD_cons, List.tail_cons]
      rwa [show frames.length + 1 + i + 1 = frames.length + (i + 2) by omega]

-- Depths are counted down to one below the greatest, where nodes wait only to be refused.
instance : WellFoundedRelation Levels where
  rel a b := Levels.less (maxDepth + 2) a.counts b.counts
  wf := InvImage.wf Levels.counts (Levels.less_wf (maxDepth + 2))

-- Where a walk stands: the node it has come to, the tree around it, and how many nodes have been
-- visited before.
structure Standing (κ σ : Type) where
  node : Node
  frames : List Frame
  setting : Setting κ σ
  dispatcher : Dispatcher κ
  visited : Nat

structure Ending (κ σ : Type) where
  outcome : Except Fault Nat
  root : Node
  setting : Setting κ σ
  dispatcher : Dispatcher κ

inductive Step (κ σ : Type) where
  | on (next : Standing κ σ)
  | ended (ending : Ending κ σ)

namespace Standing

def start (d : Dispatcher κ) (ctx : Context κ σ) : Standing κ σ :=
  ⟨ctx.root, [], ctx.toSetting, d, 0⟩

-- Where a walk stands when its node has been served: it goes on into the children of what is left
-- in the place of the node, or behind it, or it has come to an end.
def served (here : Standing κ σ) (d : Dispatcher κ) :
    Except Fault Unit × Node × Setting κ σ → Step κ σ
  | (.error f, n, s) => .ended ⟨.error f, plugAll here.frames n, s, d⟩
  | (.ok (), n, s) =>
    match n.children with
    | child :: rest => .on ⟨child, ⟨n, [], rest⟩ :: here.frames, s, d, here.visited + 1⟩
    | [] =>
      match advance n here.frames with
      | .visit next onward => .on ⟨next, onward, s, d, here.visited + 1⟩
      | .finished root => .ended ⟨.ok (here.visited + 1), root, s, d⟩

-- One turn of a walk. The node is served by the handlers for what it is on arrival. A node below
-- the greatest depth ends the walk.
def turn (perform : κ → Handler κ σ) (here : Standing κ σ) : Step κ σ :=
  if maxDepth < here.frames.length then
    .ended ⟨.error (.tooDeep depthLimit "capability" here.setting.source none),
      plugAll here.frames here.node, here.setting, here.dispatcher⟩
  else
    match here.dispatcher.ask here.node.question with
    | (entries, d) => here.served d (serve perform entries (here.node, here.setting))

theorem less_served {here next : Standing κ σ} {d : Dispatcher κ}
    {result : Except Fault Unit × Node × Setting κ σ} (shallow : ¬maxDepth < here.frames.length)
    (step : here.served d result = .on next) :
    Levels.less (maxDepth + 2) (levels next.frames [1]) (levels here.frames [1]) := by
  unfold served at step
  split at step
  · cases step
  · split at step
    · rename_i child rest _
      cases step
      -- However many children there are now, they wait one level below the node.
      have smaller : Levels.less 1 [0, rest.length + 1] [1] := .inl Nat.zero_lt_one
      have := less_levels here.frames smaller
      exact Levels.less_mono (by omega) this
    · split at step
      · rename_i onward behind
        cases step
        have waits : Levels.waitsAt 0 [1] := Nat.zero_lt_one
        have := less_advance behind waits
        exact Levels.less_mono (by omega) this
      · cases step

theorem less_turn {perform : κ → Handler κ σ} {here next : Standing κ σ}
    (step : here.turn perform = .on next) :
    Levels.less (maxDepth + 2) (levels next.frames [1]) (levels here.frames [1]) := by
  unfold turn at step
  split at step
  · cases step
  · exact less_served ‹_› step

def finish (perform : κ → Handler κ σ) (here : Standing κ σ) : Ending κ σ :=
  match _step : here.turn perform with
  | .on next => next.finish perform
  | .ended ending => ending
termination_by (⟨levels here.frames [1]⟩ : Levels)
decreasing_by exact less_turn _step

end Standing
end SemanticMarkup.Dispatch
