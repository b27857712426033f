import SemanticMarkup.Walk.Find

namespace SemanticMarkup.Walk
variable {α σ : Type}

def visits (visit : α → σ → ForInStep σ) : List α → σ → ForInStep σ
  | [], s => .yield s
  | a :: rest, s =>
    match visit a s with
    | .done s => .done s
    | .yield s => visits visit rest s

-- How a walk ends whose visits came to this. Only one that was not left meets what is too deep
-- behind them.
def ending (tooDeep : Bool) : ForInStep σ → σ × Bool
  | .done s => (s, true)
  | .yield s => (s, !tooDeep)

theorem visits_untilFound (p : α → Bool) (things : List α) :
    visits (untilFound p) things none =
      match things.find? p with
      | some a => .done (some a)
      | none => .yield none := by
  induction things with
  | nil => rfl
  | cons a rest ih =>
    rw [visits, untilFound]
    by_cases hit : p a = true
    · rw [if_pos hit, List.find?_cons_of_pos hit]
    · rw [if_neg hit, List.find?_cons_of_neg hit]
      exact ih

theorem visits_any (p : α → Bool) (things : List α) :
    visits (fun b _ => if p b then .done true else .yield false) things false =
      if things.any p then .done true else .yield false := by
  induction things with
  | nil => rfl
  | cons a rest ih =>
    rw [visits, List.any_cons]
    by_cases hit : p a = true
    · rw [if_pos hit, hit, Bool.true_or, if_pos rfl]
    · rw [if_neg hit, Bool.eq_false_iff.mpr hit, Bool.false_or]
      exact ih

theorem visits_each (call : α → σ → σ) (things : List α) (s : σ) :
    visits (fun b s => .yield (call b s)) things s = .yield (things.foldl (fun s b => call b s) s) := by
  induction things generalizing s with
  | nil => rfl
  | cons a rest ih => exact ih (call a s)

variable [Branching α]

theorem loop_run (visit : α → σ → ForInStep σ) (waiting : List (α × Nat)) (s : σ) :
    loop visit waiting s = ending (run waiting).tooDeep (visits visit (run waiting).visited s) := by
  induction waiting using run.induct generalizing s with
  | case1 =>
    rw [loop, run]
    rfl
  | case2 a depth waiting deep =>
    rw [loop, run, if_pos deep, if_pos deep]
    rfl
  | case3 a depth waiting fine ih =>
    rw [loop, run, if_neg fine, if_neg fine, visits]
    cases visit a s with
    | done s => rfl
    | yield s => exact ih s

theorem through_nodes (visit : α → σ → ForInStep σ) (a : α) (s : σ) :
    through visit a s = ending (nodes a).tooDeep (visits visit (nodes a).visited s) :=
  loop_run visit [(a, 0)] s

theorem search_nodes (p : α → Bool) (a : α) :
    search p a =
      match (nodes a).visited.find? p with
      | some b => .found b
      | none => if (nodes a).tooDeep then .tooDeep else .absent := by
  rw [search, through_nodes, visits_untilFound]
  cases (nodes a).visited.find? p with
  | some b => rfl
  | none =>
    cases (nodes a).tooDeep with
    | true => rfl
    | false => rfl

theorem first?_nodes (p : α → Bool) (a : α) :
    first? p a =
      match (nodes a).visited.find? p with
      | some b => .ok (some b)
      | none => if (nodes a).tooDeep then .error depthFault else .ok none := by
  rw [first?, search_nodes]
  cases (nodes a).visited.find? p with
  | some b => rfl
  | none =>
    cases (nodes a).tooDeep with
    | true => rfl
    | false => rfl

theorem reaches_nodes (p : α → Bool) (a : α) :
    reaches p a =
      if (nodes a).visited.any p then .ok true
      else if (nodes a).tooDeep then .error depthFault else .ok false := by
  rw [reaches, through_nodes, visits_any]
  cases (nodes a).visited.any p with
  | true => rfl
  | false =>
    cases (nodes a).tooDeep with
    | true => rfl
    | false => rfl

theorem each_nodes (call : α → σ → σ) (a : α) (s : σ) :
    each call a s =
      ((nodes a).visited.foldl (fun s b => call b s) s,
        if (nodes a).tooDeep then .error depthFault else .ok ()) := by
  rw [each, through_nodes, visits_each]
  cases (nodes a).tooDeep with
  | true => rfl
  | false => rfl

end SemanticMarkup.Walk
