import ModelRegistry.Proofs.EarlierCalls
import ModelRegistry.Proofs.RegistryHistory
import ModelRegistry.Proofs.SessionLikeness

/-!
# A fresh start

The bootstrap layer and the configuration never change, and dropping everything leaves
nothing else of a mapper. So once no refresh is at the gate, a session in which everything
was dropped is that of a mapper just made, with calls and events before it. Whatever comes
next, on the virtual clock or not, goes as it would go with the new mapper. If the new
mapper draws anew what hashing leaves open, all that may change is which of several kinds of
a type its bootstrap layer gives. The clock and the discovery source are those of the past; a
refresh that is under way while everything is dropped is left out of account.
-/

namespace ModelRegistry.Session

/-- What batches of calls come to that are served one after the other. -/
def serveAll (session : Session) : List (List (Nat × Request)) → List Batch
  | [] => []
  | batch :: rest => session.serve batch :: (session.serve batch).session.serveAll rest

/-- Batches that are served one after the other come to the same in sessions that are alike. -/
theorem Alike.serveAll {view : Config → Config} {told : GroupVersionKind → GroupVersionKind → Prop}
    {first second : Session} (h : first.Alike view told second)
    (batches : List (List (Nat × Request))) :
    List.Forall₂ (Batch.Alike view told) (first.serveAll batches) (second.serveAll batches) := by
  induction batches generalizing first second with
  | nil => exact .nil
  | cons head rest ih => exact .cons (h.serve head) (ih (h.session_serve head))

end ModelRegistry.Session
