import DumpMode.Editor.Adapter

/-!
# Serving requests

An editor asks for two things: that the mode be registered, and that a text be looked at anew. What
a host is given on the way can be taken down, in the order in which it gets it.
-/

namespace DumpMode.Editor

/-- What a host is given by one call. -/
inductive Delivery where
  | mode (registration : Registration)
  | tags (tags : List Tag)
  | folds (folds : Folding.Folds)

/-- What an editor asks for. -/
inductive Request where
  | register
  | refresh (text : Text)

variable {σ : Type}

/-- A host with a list of all that it is given. -/
def Host.traced (host : Host σ) : Host (σ × List Delivery) where
  register r s := ((host.register r s.1).1, (host.register r s.1).2, s.2 ++ [.mode r])
  applyTags tags s := (host.applyTags tags s.1, s.2 ++ [.tags tags])
  applyFolds folds s := (host.applyFolds folds s.1, s.2 ++ [.folds folds])

namespace Adapter

def serve (a : Adapter) (host : Host σ) (s : σ) : Request → Logged σ
  | .register => do return (← a.register host s).2
  | .refresh text => a.refresh host text s

def serveAll (a : Adapter) (host : Host σ) (s : σ) : List Request → Logged σ
  | [] => return s
  | r :: rs => do a.serveAll host (← a.serve host s r) rs

/-- What a request gives to a host: a registration, or the tags of a text and then its regions. -/
def deliveries (a : Adapter) : Request → List Delivery
  | .register => [.mode a.registration]
  | .refresh text =>
    let snapshot := (a.scan text).value
    [.tags snapshot.tags, .folds ⟨snapshot.folds, snapshot.unbalanced⟩]

end Adapter

end DumpMode.Editor
