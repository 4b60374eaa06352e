import TableOps.Command.Reading
import TableOps.Value.Unread

/-!
# Patched commands

A command whose members are replaced one by one is not checked again. A patched command is a
command that may have such unread members.

* `Patched` — the command and its unread members; `Patched.replace` replaces one.
* `Command.override` — a command with members replaced.
* `Patched.members`, `Patched.member` — every member as it is shown.

Main statement: `members_ofCommand`, a patched command without unread members shows its command.
-/

namespace TableOps

/-- A command some members of which may have been replaced by unread values. -/
structure Patched where
  command : Command
  /-- The unread values by member; they hide the members of the command. -/
  unread : Unread

namespace Patched

/-- A command without unread members. -/
def ofCommand (c : Command) : Patched :=
  ⟨c, []⟩

/-- The names of the members of a command. -/
def memberNames : List String :=
  ["operation", "expression", "data", "query", "range", "fields", "connection", "refresh_cache",
    "table_schema", "debug"]

/-- The command with one member set to a value, if the value fits as it stands. -/
def set? (c : Command) (name : String) (v : Value) : Option Command :=
  match name, v with
  | "operation", .text op => (Operation.ofName? op).map fun op => { c with operation := op }
  | "expression", .expression id => some { c with target := .shared id }
  | "expression", .text path => some { c with target := .stored path }
  | "data", .null => some { c with data := none }
  | "data", .map data => some { c with data := some data }
  | "query", .map query => some { c with query := query }
  | "range", .null => some { c with page := none }
  | "range", .checked .page plain =>
    match Page.ofValue (.checked .page plain) with
    | .ok page => some { c with page := some page }
    | _ => none
  | "fields", .null => some { c with fields := none }
  | "fields", .list items =>
    (Value.texts? items).map fun fields => { c with fields := some fields }
  | "connection", v => some { c with connection := v }
  | "refresh_cache", .bool b => some { c with refresh := b }
  | "table_schema", .null => some { c with schema := none }
  | "table_schema", .checked .schema plain =>
    match TableSchema.ofValue (.checked .schema plain) with
    | .ok schema => some { c with schema := some schema }
    | _ => none
  | "debug", .bool b => some { c with debug := b }
  | _, _ => none

/-- The command with one member replaced by a value, which is read if it fits. Other names have no
effect. -/
def replace (p : Patched) (name : String) (v : Value) : Patched :=
  match set? p.command name v with
  | some c => ⟨c, p.unread.erase name⟩
  | none =>
    if memberNames.contains name then { p with unread := p.unread.put name v } else p

/-- Every member, null for what the command lacks. -/
def members (p : Patched) : Entries Value :=
  p.command.members.update p.unread

/-- A patched command without unread members shows its command. -/
theorem members_ofCommand (c : Command) : (ofCommand c).members = c.members :=
  rfl

/-- A member by name, null for what the command lacks. -/
def member (p : Patched) (name : String) : Value :=
  (p.members.get? name).getD .null

/-- The command is to be logged. -/
def debug (p : Patched) : Bool :=
  p.unread.shows "debug" p.command.debug

/-- The remembered total is to be forgotten first. -/
def refresh (p : Patched) : Bool :=
  p.unread.shows "refresh_cache" p.command.refresh

/-- The expression of the command. -/
def target (p : Patched) : Except Failure Target :=
  p.unread.readAs "expression" p.command.target

/-- The schema given with the command. -/
def schema (p : Patched) : Except Failure (Option TableSchema) :=
  p.unread.readAs "table_schema" p.command.schema

/-- A page is asked for. -/
def isPaged (p : Patched) : Bool :=
  p.unread.has "range" || p.command.page.isSome

end Patched

/-- The command with members replaced, which are not checked. -/
def Command.override (c : Command) (written : Entries Value) : Except Failure Patched := do
  let overrides ← overridesOf written
  return overrides.foldl (fun p (name, v) => p.replace name v) (.ofCommand c)

end TableOps
