import SemanticMarkup.Proofs.Dispatch.Renaming
import SemanticMarkup.Proofs.Pipeline.Batching

namespace SemanticMarkup
open Dispatch

inductive EntryPoint (κ : Type) where
  | apply
  | registration
  | handler (name : κ)

-- A call of a plugin: what it was given, what it left, and the fault that it raised, if any. The
-- tree that a handler is given is the node that it serves, and the one that it leaves is what
-- takes the place of that node.
structure Event (κ σ : Type) where
  plugin : Plugin κ σ
  point : EntryPoint κ
  given : Context κ σ
  left : Context κ σ
  raised : Option Fault

namespace Context
variable {κ σ : Type} {a b c : Context κ σ}

-- The same but for what has been counted and for the registry that is being filled.
structure Alike (a b : Context κ σ) : Prop where
  root : a.root = b.root
  setting : a.toSetting.idle = b.toSetting.idle

theorem Alike.refl (a : Context κ σ) : a.Alike a := ⟨rfl, rfl⟩

theorem Alike.symm (alike : a.Alike b) : b.Alike a := ⟨alike.root.symm, alike.setting.symm⟩

theorem Alike.trans (first : a.Alike b) (second : b.Alike c) : a.Alike c :=
  ⟨first.root.trans second.root, first.setting.trans second.setting⟩

def within (frames : List Frame) (ctx : Context κ σ) : Context κ σ :=
  { ctx with root := plugAll frames ctx.root }

end Context

section
variable {κ σ : Type} {a b c : Context κ σ} {e : Event κ σ} {events more : List (Event κ σ)}

-- A call takes a run from the one context to the other: they are what it was given and what it
-- left, and for a handler the tree around its node is the same in both.
def Event.Moves (e : Event κ σ) (before after : Context κ σ) : Prop :=
  ∃ frames, (frames = [] ∨ ∃ name, e.point = .handler name) ∧
    before.Alike (e.given.within frames) ∧ after.Alike (e.left.within frames)

-- These calls, in this order, are all that happens between the two contexts.
inductive Follows : Context κ σ → List (Event κ σ) → Context κ σ → Prop where
  | still {a b : Context κ σ} (alike : a.Alike b) : Follows a [] b
  | call {a b c : Context κ σ} {e : Event κ σ} {rest : List (Event κ σ)} (moves : e.Moves a b)
      (others : Follows b rest c) : Follows a (e :: rest) c

namespace Follows

theorem of_alike (alike : a.Alike b) (follows : Follows b events c) : Follows a events c := by
  cases follows with
  | still same => exact .still (alike.trans same)
  | call moves others =>
    obtain ⟨frames, whole, before, after⟩ := moves
    exact .call ⟨frames, whole, alike.trans before, after⟩ others

theorem trans (first : Follows a events b) (second : Follows b more c) :
    Follows a (events ++ more) c := by
  induction first with
  | still alike => exact second.of_alike alike
  | call moves _ ih => exact .call moves (ih second)

end Follows

-- A run that is over when a plugin raises a fault: nothing is called behind the call that raised
-- it, nothing is counted any more, and the fault goes out with the name and the phase of the
-- plugin that was called, unless it belongs to the transform already.
def Aborts {α : Type} (plugins : List (Plugin κ σ)) (events : List (Event κ σ))
    (result : Except Fault α) (after : Context κ σ) : Prop :=
  ∀ earlier e later g, events = earlier ++ e :: later → e.raised = some g →
    later = [] ∧ e.plugin ∈ plugins ∧ after.metrics = e.left.metrics ∧
      result = .error (if g.ofTransform then g
        else .plugin (.text e.plugin.name) (.text g.text) e.plugin.phase.name after.source (some g))

end

def Dispatch.Registry.insertAll {κ : Type} (r : Registry κ) (handlers : List (String × κ)) :
    Registry κ :=
  handlers.foldl (fun r pair => r.insert pair.1 pair.2) r

-- An action that does nothing to the registry but to put handlers into it.
def Action.Registers {κ σ α : Type} (action : Action κ σ α) : Prop :=
  ∀ ctx r, ctx.collecting = some r →
    ∃ handlers, (action.exec ctx).2.collecting = some (r.insertAll handlers)

-- A plugin with a name, whose handlers come into a registry in the one way that there is.
structure Plugin.Sound {κ σ : Type} (p : Plugin κ σ) : Prop where
  named : p.name ≠ ""
  registers : ∀ action, p.work.handlers? = some action → action.Registers

structure Signed (κ σ : Type) where
  plugin : Plugin κ σ
  handler : κ

-- The names of signed handlers, and what is shared when the calls are written down beside it.
abbrev SignedName (ε σ : Type) := HandlerName (Signed (HandlerName ε) σ)
abbrev Noted (ε σ : Type) := σ × List (Event (HandlerName ε) σ)

variable {ε σ α β : Type}

namespace HandlerName

def sign (p : Plugin (HandlerName ε) σ) (name : HandlerName ε) : SignedName ε σ := .extra ⟨p, name⟩

def unsigned : SignedName ε σ → HandlerName ε
  | .builtin h => .builtin h
  | .extra g => g.handler

-- Whose handler it is; one without a signature counts for the given plugin.
def signer (p : Plugin (HandlerName ε) σ) : SignedName ε σ → Plugin (HandlerName ε) σ
  | .builtin _ => p
  | .extra g => g.plugin

end HandlerName

namespace Dispatch

def signEntries (p : Plugin (HandlerName ε) σ) :
    List (Entry (SignedName ε σ)) → List (Entry (HandlerName ε)) → List (Entry (SignedName ε σ))
  | _, [] => []
  | [], e :: rest => e.map (.sign p) :: signEntries p [] rest
  | old :: older, e :: rest => e.map (.sign (old.handler.signer p)) :: signEntries p older rest

def Registry.signed (p : Plugin (HandlerName ε) σ) (before : Registry (SignedName ε σ))
    (r : Registry (HandlerName ε)) : Registry (SignedName ε σ) :=
  ⟨r.byKey.map fun entry => (entry.1, signEntries p (before.entries entry.1) entry.2),
    r.count, r.registrant⟩

end Dispatch

namespace Setting

def plain (s : Setting (SignedName ε σ) (Noted ε σ)) : Setting (HandlerName ε) σ :=
  { s with
    collecting := s.collecting.map (Registry.map HandlerName.unsigned)
    shared := s.shared.1 }

def noting (s : Setting (SignedName ε σ) (Noted ε σ)) (after : Setting (HandlerName ε) σ)
    (e : Event (HandlerName ε) σ) : Setting (SignedName ε σ) (Noted ε σ) :=
  { after with
    collecting := after.collecting.map (Registry.signed e.plugin (s.collecting.getD .empty))
    shared := (after.shared, s.shared.2 ++ [e]) }

def withRoot {κ σ : Type} (s : Setting κ σ) (root : Node) : Context κ σ := { s with root := root }

end Setting

def Context.plain (ctx : Context (SignedName ε σ) (Noted ε σ)) : Context (HandlerName ε) σ :=
  ctx.toSetting.plain.withRoot ctx.root

def raisedBy (result : Except Fault α) : Option Fault :=
  match result with
  | .ok _ => none
  | .error f => some f

def inPlace (answer : Except Fault (Option Node)) (left : Node) : Node :=
  match answer with
  | .ok answer => answer.getD left
  | .error _ => left

def Action.noted (p : Plugin (HandlerName ε) σ) (point : EntryPoint (HandlerName ε)) (f : α → β)
    (action : Action (HandlerName ε) σ α) : Action (SignedName ε σ) (Noted ε σ) β :=
  ExceptT.mk fun ctx =>
    match action.exec ctx.plain with
    | (result, after) =>
      (result.map f, (ctx.toSetting.noting after.toSetting
        ⟨p, point, ctx.plain, after, raisedBy result⟩).withRoot after.root)

def Signed.noted (perform : HandlerName ε → Handler (HandlerName ε) σ)
    (g : Signed (HandlerName ε) σ) : Handler (SignedName ε σ) (Noted ε σ) :=
  ExceptT.mk fun (n, s) =>
    match (perform g.handler).run.run (n, s.plain) with
    | (answer, left, after) =>
      (answer, left, s.noting after ⟨g.plugin, .handler g.handler, s.plain.withRoot n,
        after.withRoot (inPlace answer left), raisedBy answer⟩)

def Plugin.signPairs (p : Plugin (HandlerName ε) σ) (pairs : List (Value × Option (HandlerName ε))) :
    List (Value × Option (SignedName ε σ)) :=
  pairs.map fun pair => (pair.1, pair.2.map (.sign p))

-- A plugin whose calls are written down. What it registers carries its signature, whether it is
-- registered on the way or handed over in the end.
def Plugin.noted (p : Plugin (HandlerName ε) σ) : Plugin (SignedName ε σ) (Noted ε σ) :=
  ⟨p.name, p.phase, p.order, p.enabledByDefault,
    ⟨p.work.label, p.work.apply.noted p .apply id,
      p.work.handlers?.map fun action => action.noted p .registration p.signPairs⟩⟩

def Transformer.noted (t : Transformer ε σ) : Transformer (Signed (HandlerName ε) σ) (Noted ε σ) :=
  ⟨{ t.options with plugins := none }, t.plugins.map Plugin.noted, Signed.noted t.perform⟩

end SemanticMarkup
