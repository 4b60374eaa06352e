import TableOps.Session.Registry

/-!
# Transactions

A block of calls on one connection that takes effect as a whole: it is committed when it succeeds
and rolled back when it fails with an error. A block on a connection that is in a transaction already
runs inside a savepoint. A block that is broken off only gives back the connection that it took.

* `Transaction.enter`, `Transaction.leave` — the two ends of a block.
* `Session.transaction` — a block around a call.
-/

namespace TableOps

/-- A block that has been entered: its connection, and whether the block took it from a pool. -/
structure Transaction where
  connection : ConnectionId
  owned : Bool

namespace Transaction

/-- Gives the connection of a block back if the block took it. -/
def cleanup (t : Transaction) : SessionM Unit :=
  if t.owned then SessionM.lift t.connection.release else pure ()

/-- Enters a block on the caller's connection, or on one of the database. -/
def enter (database : SessionM DatabaseId) (r : Route) : SessionM Transaction := do
  let t : Transaction ← match r with
    | .own c => pure ⟨c, false⟩
    | .pool => do
      let c ← (← database).connect
      pure ⟨c, true⟩
    | .unusable _ => throw .unsupportedValue
  t.connection.begin.onFailure (do
    let _ ← t.cleanup.run
    return ())
  return t

/-- Ends the transaction of a block: it is committed, or rolled back after an error. What is no error
passes the block, whose transaction is left open. -/
def settle (t : Transaction) : Option Failure → SessionM Unit
  | none => t.connection.commit
  | some f => if f.isError then t.connection.rollback else pure ()

/-- Leaves a block, which may have failed. -/
def leave (t : Transaction) (failure : Option Failure) : SessionM Unit :=
  (t.settle failure).always t.cleanup

end Transaction

/-- Runs a call in a transaction. -/
def Session.transaction {α : Type} (database : SessionM DatabaseId) (r : Route)
    (body : ConnectionId → SessionM α) : SessionM α := do
  let t ← Transaction.enter database r
  let r ← SessionM.lift (body t.connection).run
  match r with
  | .ok a => do
    t.leave none
    return a
  | .error f => do
    t.leave (some f)
    throw f

end TableOps
