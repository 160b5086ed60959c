import Rollup.Fault

/-!
# Parts

A part of a state can be read off it and put back into it, so that a call on the part is a call on the
whole.
-/

namespace Rollup

/-- A part of a state. -/
structure Part (σ β : Type) where
  get : σ → β
  set : σ → β → σ

namespace Part

variable {σ β : Type}

def modify (part : Part σ β) (f : β → β) : StateM σ Unit :=
  MonadState.modifyGet fun s => ((), part.set s (f (part.get s)))

def modifyGet {γ : Type} (part : Part σ β) (f : β → γ × β) : StateM σ γ :=
  MonadState.modifyGet fun s => let (c, b) := f (part.get s); (c, part.set s b)

/-- The first of two. -/
def fst {τ : Type} : Part (β × τ) β := ⟨Prod.fst, fun s b => (b, s.2)⟩

/-- All of it. -/
def whole : Part σ σ := ⟨id, fun _ s => s⟩

/-- Runs a call on the part. -/
def run {γ : Type} (part : Part σ β) (call : StateM β γ) : StateM σ γ := part.modifyGet call.run

/-- Runs a call on the part that may break off. -/
def act {γ : Type} (part : Part σ β) (call : Action β γ) : Action σ γ := part.run call.run

/-- An element of a list. Beyond the list there is a default, which is never changed. -/
def element (part : Part σ (List β)) (default : β) (index : Nat) : Part σ β where
  get s := (part.get s).getD index default
  set s b := part.set s ((part.get s).set index b)

end Part

end Rollup
