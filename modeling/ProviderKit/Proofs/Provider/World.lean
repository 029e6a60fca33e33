import ProviderKit.Provider.Basic

/-!
# Providers that act on a world

The callbacks of a real provider read and change things outside the program.  Here the
outside is a world of any type, which every action may read and replace: an action started
in a world has an outcome and leaves a world.  Statements about a server quantify over the
world in which a call starts, so nothing is assumed of what happens between two calls.
-/

namespace ProviderKit

variable {σ α β : Type}

/-- What comes of an action that starts in a world. -/
def outcome (action : StateM σ α) (world : σ) : α :=
  (StateT.run action world).1

def worldAfter (action : StateM σ α) (world : σ) : σ :=
  (StateT.run action world).2

@[simp] theorem outcome_pure (result : α) (world : σ) :
    outcome (pure result) world = result :=
  rfl

/-- The next action starts where the first one has left off. -/
theorem run_bind_eq (action : StateM σ α) (next : α → StateM σ β) (world : σ) :
    StateT.run (action >>= next) world =
      StateT.run (next (outcome action world)) (worldAfter action world) :=
  rfl

@[simp] theorem outcome_bind (action : StateM σ α) (next : α → StateM σ β) (world : σ) :
    outcome (action >>= next) world =
      outcome (next (outcome action world)) (worldAfter action world) :=
  rfl

/-- The resource leaves every plan as it gets it. -/
def Resource.KeepsPlans (resource : Resource (StateM σ)) : Prop :=
  ∀ request response world, outcome (resource.modifyPlan request response) world = response

end ProviderKit
