import SemanticMarkup.Dispatch.Walk

namespace SemanticMarkup.Dispatch
variable {κ σ : Type}

-- One walk over the whole tree with the handlers of a dispatcher, which keeps its answers. Without
-- handlers nothing is visited.
def Dispatcher.run (perform : κ → Handler κ σ) (d : Dispatcher κ) (ctx : Context κ σ) :
    Except Fault Nat × Dispatcher κ × Context κ σ :=
  if d.registry.count = 0 then (.ok 0, d, ctx)
  else
    match (Standing.start d ctx).finish perform with
    | ⟨outcome, root, s, d⟩ => (outcome, d, { s with root := root })

-- The walk that waits for the handlers of a registry. Nothing has been answered before it, for
-- the last thing done to the registry was to register or to clear.
def run (perform : κ → Handler κ σ) (r : Registry κ) : Action κ σ Nat := do
  let ctx ← get
  match (Dispatcher.ofRegistry r).run perform ctx with
  | (outcome, _, ctx) =>
    set ctx
    outcome

-- Adds the handlers of a plugin to a registry. Those registered before a fault stay in it. The
-- context holds the registry only while the plugin is at it.
def collect (p : Plugin κ σ) (r : Registry κ) (ctx : Context κ σ) :
    Except Fault Unit × Registry κ × Context κ σ :=
  match p.work.handlers? with
  | none =>
    (.error (.config ("Plugin " ++ Text.quotedForm p.name ++
      " does not register capability handlers")), r, ctx)
  | some handlers =>
    let filling := { r with registrant := some p.name }
    match handlers.exec { ctx with collecting := some filling } with
    | (result, ctx) =>
      let filled := ctx.collecting.getD filling
      let (result, filled) := match result with
        | .ok pairs => filled.registerAll (Registry.mapping pairs)
        | .error f => (.error f, filled)
      let result := match result with
        | .ok () => .ok ()
        | .error f => .error (Plugin.blame p.name "capability" ctx.source f)
      (result, { filled with registrant := none }, { ctx with collecting := none })

def Dispatcher.collect (p : Plugin κ σ) (d : Dispatcher κ) (ctx : Context κ σ) :
    Except Fault Unit × Dispatcher κ × Context κ σ :=
  match Dispatch.collect p d.registry ctx with
  | (result, filled, ctx) =>
    (result, ⟨filled, if filled.count = d.registry.count then d.answers else []⟩, ctx)

def flush (perform : κ → Handler κ σ) (r : Registry κ) : Action κ σ Unit := do
  if r.count = 0 then return ()
  let _ ← run perform r
  modify fun ctx => ctx.withSetting ctx.toSetting.countWalk

-- The capability phase. Plugins that follow one another and have handlers share one walk, which
-- comes before the next plugin without handlers, and at the end.
def phase (perform : κ → Handler κ σ) : List (Plugin κ σ) → Registry κ → Action κ σ Unit
  | [], r => flush perform r
  | p :: rest, r => do
    if p.isBatched then
      let ctx ← get
      match collect p r ctx with
      | (.ok (), r, ctx) =>
        set ctx
        phase perform rest r
      | (.error f, _, ctx) =>
        set ctx
        throw f
    else
      flush perform r
      p.run
      phase perform rest r.clear

end SemanticMarkup.Dispatch
