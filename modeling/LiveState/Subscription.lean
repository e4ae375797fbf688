import LiveState.OrderedMap
import LiveState.Observable.Place

/-!
# Subscriptions by name

A scenario keeps subscriptions under names.  Keeping a new one under a used name drops the older
one, and dropping a subscription does not end it.
-/

namespace LiveState.Subscription

/-- What can be done with the subscription of a name. -/
inductive Request where
  | unsubscribe
  | isActive
  | describe (pretty : Bool)
  /-- Forget the name; the subscriber goes on listening. -/
  | forget

inductive Answer where
  | missing
  | done
  | active (b : Bool)
  | text (s : String)

def description (active : Bool) : Text.Description :=
  .record "Subscription" [("active", .flag active)]

variable {W α κ : Type}

/-- Ask something of the subscription of subscriber `id` at a place.  `forget` drops its name. -/
def Request.perform (p : Place W α κ) (id : Nat) (forget : W → W) : Request → Act W Answer
  | .unsubscribe => do
    p.unsubscribe id
    return .done
  | .isActive => .active <$> p.look (·.isActive id)
  | .describe pretty => do
    let b ← p.look (·.isActive id)
    return .text ((description b).render pretty)
  | .forget => do
    modify forget
    return .done

end LiveState.Subscription
