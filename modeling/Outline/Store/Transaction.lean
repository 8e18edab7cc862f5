import Outline.Store.Atoms

/-!
# Transactions

A connection is a store with, while a transaction is open, the store to go back to. Rolling back
restores every row; the identifiers and times drawn meanwhile stay drawn.
-/

namespace Outline

/-- A store in use. -/
structure Connection where
  store : Store := {}
  /-- The store as it was when the open transaction began. -/
  saved : Option Store := none

namespace Connection

/-- Opens a transaction. Until it ends, pointers between cells may be left without a target. -/
def begin (connection : Connection) : Except DatabaseError Connection :=
  match connection.saved with
  | some _ => .error .nested
  | none =>
    let store := connection.store
    let references := match store.references with
      | .off => .off
      | _ => .deferred 0
    .ok { store := { store with references }, saved := some store }

/-- How references are checked once no transaction is open. -/
def settledCheck : ReferenceCheck → ReferenceCheck
  | .off => .off
  | _ => .immediate

/-- Ends the transaction and keeps its changes. It stays open if a pointer lacks its target. -/
def commit (connection : Connection) : Except DatabaseError Connection :=
  match connection.saved, connection.store.references with
  | none, _ => .error (.noTransaction .commit)
  | some _, .deferred (_ + 1) => .error .unresolved
  | some _, references =>
    .ok { store := { connection.store with references := settledCheck references } }

/-- Ends the transaction, if one is open, and takes its changes back. -/
def abandon (connection : Connection) : Connection :=
  match connection.saved with
  | none => connection
  | some saved => { store := { saved with supply := connection.store.supply } }

/-- Ends the transaction and takes its changes back. -/
def rollback (connection : Connection) : Except DatabaseError Connection :=
  match connection.saved with
  | none => .error (.noTransaction .rollback)
  | some _ => .ok connection.abandon

/-- Switches the checking of references; inside a transaction this has no effect. -/
def checkReferences (connection : Connection) (on : Bool) : Connection :=
  match connection.saved with
  | some _ => connection
  | none =>
    let references := if on then .immediate else .off
    { store := { connection.store with references } }

/-- Closes the store and opens it again: an open transaction is taken back and references are
checked. -/
def reopen (connection : Connection) : Connection :=
  connection.abandon.checkReferences true

end Connection

end Outline
