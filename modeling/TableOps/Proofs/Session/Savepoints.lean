import TableOps.Proofs.Entries
import TableOps.Session.Connection

/-!
# What a server makes of the events

A server carries statements out on a driver connection, keeps them until they are committed, and
takes them back to a savepoint when it is asked to. Its answers are those that the session was given.

* `SavepointCommand` — the statements that set, release and restore savepoints.
* `Ledger` — what was committed on a driver connection and what is in progress on it.
* `Ledger.read` — the ledger after some events.
* `Reply.result` — what the driver reports for an answer.

Main statements: `Ledger.restore_append` and `Ledger.release_append`, which savepoint a command is
about when newer ones of other names stand before it.
-/

namespace TableOps

/-! ## Savepoints -/

/-- A statement that is about a savepoint. -/
inductive SavepointCommand where
  | set (name : String)
  | release (name : String)
  | restore (name : String)
  deriving DecidableEq, Repr

namespace SavepointCommand

/-- What a command is written with before the name of its savepoint. -/
def lead : SavepointCommand → String
  | .set _ => "SAVEPOINT "
  | .release _ => "RELEASE SAVEPOINT "
  | .restore _ => "ROLLBACK TO SAVEPOINT "

/-- The savepoint of a command. -/
def name : SavepointCommand → String
  | .set name | .release name | .restore name => name

/-- The command as a statement. -/
def text (command : SavepointCommand) : String :=
  command.lead ++ command.name

/-- The command of a kind that a text gives. -/
def readAs (kind : String → SavepointCommand) (s : String) : Option SavepointCommand :=
  (Text.dropLead? (kind "").lead.toList s.toList).map fun name => kind (String.ofList name)

/-- The command that a statement gives, if it gives one. -/
def ofStatement? : Value → Option SavepointCommand
  | .text s => (readAs .set s).or ((readAs .release s).or (readAs .restore s))
  | _ => none

theorem dropLead?_append (lead rest : List Char) :
    Text.dropLead? lead (lead ++ rest) = some rest := by
  have hlead : lead.isPrefixOf (lead ++ rest) = true :=
    List.isPrefixOf_iff_prefix.mpr (List.prefix_append lead rest)
  rw [Text.dropLead?, if_pos hlead, List.drop_left]

theorem readAs_append (kind : String → SavepointCommand) (name : String) :
    readAs kind ((kind "").lead ++ name) = some (kind name) := by
  rw [readAs, String.toList_append, dropLead?_append, Option.map_some, String.ofList_toList]

/-- A command is read back from its statement: no command is written like the lead of another. -/
theorem ofStatement?_text (command : SavepointCommand) :
    ofStatement? (.text command.text) = some command := by
  cases command with
  | set name =>
    have hset : readAs .set ("SAVEPOINT " ++ name) = some (.set name) := readAs_append .set name
    rw [ofStatement?, text, lead, SavepointCommand.name, hset, Option.some_or]
  | release name =>
    have hset : readAs .set ("RELEASE SAVEPOINT " ++ name) = none := by
      rw [readAs, String.toList_append]
      rfl
    have hrelease : readAs .release ("RELEASE SAVEPOINT " ++ name) = some (.release name) :=
      readAs_append .release name
    rw [ofStatement?, text, lead, SavepointCommand.name, hset, hrelease, Option.none_or,
      Option.some_or]
  | restore name =>
    have hset : readAs .set ("ROLLBACK TO SAVEPOINT " ++ name) = none := by
      rw [readAs, String.toList_append]
      rfl
    have hrelease : readAs .release ("ROLLBACK TO SAVEPOINT " ++ name) = none := by
      rw [readAs, String.toList_append]
      rfl
    have hrestore : readAs .restore ("ROLLBACK TO SAVEPOINT " ++ name) = some (.restore name) :=
      readAs_append .restore name
    rw [ofStatement?, text, lead, SavepointCommand.name, hset, hrelease, hrestore, Option.none_or,
      Option.none_or]

end SavepointCommand

/-- What becomes of the savepoints set after one that is released or restored. -/
inductive Later where
  | kept
  | forgotten
  deriving DecidableEq, Repr

/-! ## What is committed and what is in progress -/

/-- A statement that was carried out, with its values. -/
structure Sent where
  statement : Value
  values : List Value
  deriving Repr

/-- What a driver reports for an answer: its result, or a failure. -/
def Reply.result : Reply → Except Failure Result
  | .refused reason => .error (.driver reason)
  | .done columns rows rowCount lastInsertId => Result.ofReport columns rows rowCount lastInsertId

/-- The effects that a statement has by its answer: none when it is refused. -/
def Reply.effects (statement : Value) (values : List Value) : Reply → List Sent
  | .refused _ => []
  | .done .. => [⟨statement, values⟩]

/-- What a server keeps for a driver connection. -/
structure Ledger where
  /-- The statements whose effects are committed, the first first. -/
  committed : List Sent
  /-- The statements whose effects are not committed yet, the first first. -/
  pending : List Sent
  /-- What was pending when a savepoint was set; the newest savepoint first. -/
  savepoints : Entries (List Sent)
  /-- The answers that the server has still to give. -/
  replies : List Reply
  deriving Repr

namespace Ledger

/-- The savepoints from the newest one of a name on. -/
def since (name : String) (savepoints : Entries (List Sent)) : Entries (List Sent) :=
  savepoints.dropWhile fun entry => entry.1 != name

/-- The savepoints set after the newest one of a name. -/
def after (name : String) (savepoints : Entries (List Sent)) : Entries (List Sent) :=
  savepoints.takeWhile fun entry => entry.1 != name

/-- Takes the pending effects back to the newest savepoint of a name, which stays. -/
def restore (later : Later) (name : String) (w : Ledger) : Ledger :=
  match since name w.savepoints with
  | [] => w
  | (found, saved) :: old => { w with
      pending := saved
      savepoints := match later with
        | .kept => w.savepoints
        | .forgotten => (found, saved) :: old }

/-- Forgets the newest savepoint of a name. -/
def release (later : Later) (name : String) (w : Ledger) : Ledger :=
  match since name w.savepoints with
  | [] => w
  | _ :: old => { w with
      savepoints := match later with
        | .kept => after name w.savepoints ++ old
        | .forgotten => old }

/-- Carries a command about a savepoint out. -/
def command (later : Later) (w : Ledger) : SavepointCommand → Ledger
  | .set name => { w with savepoints := (name, w.pending) :: w.savepoints }
  | .release name => w.release later name
  | .restore name => w.restore later name

/-- Carries a statement out that is answered with `reply`. -/
def carryOut (later : Later) (statement : Value) (values : List Value) (reply : Reply)
    (w : Ledger) : Ledger :=
  match SavepointCommand.ofStatement? statement with
  | none => { w with pending := w.pending ++ reply.effects statement values }
  | some c =>
    match reply with
    | .refused _ => w
    | .done .. => w.command later c

/-- The ledger with what was pending given up. -/
def settle (w : Ledger) (committed : List Sent) : Ledger :=
  { w with committed := committed, pending := [], savepoints := [] }

/-- The ledger of a driver connection after an event, which may be one of another connection. -/
def step (later : Later) (raw : RawId) (w : Ledger) : Event → Ledger
  | .opened .. => w
  | .executed on statement values =>
    let answered := { w with replies := w.replies.tail }
    if on = raw then answered.carryOut later statement values (w.replies.headD .nothing)
    else answered
  | .committed on => if on = raw then w.settle (w.committed ++ w.pending) else w
  | .rolledBack on | .closed on => if on = raw then w.settle w.committed else w

/-- The ledger of a driver connection after some events. -/
def read (later : Later) (raw : RawId) (w : Ledger) (events : List Event) : Ledger :=
  events.foldl (step later raw) w

theorem read_append (later : Later) (raw : RawId) (w : Ledger) (first rest : List Event) :
    read later raw w (first ++ rest) = read later raw (read later raw w first) rest :=
  List.foldl_append

/-- A statement that is about no savepoint has the effects that its answer gives it. -/
theorem step_ordinary {statement : Value}
    (hordinary : SavepointCommand.ofStatement? statement = none) (later : Later) (raw : RawId)
    (values : List Value) (w : Ledger) :
    step later raw w (.executed raw statement values) =
      { w with
        pending := w.pending ++ (w.replies.headD .nothing).effects statement values
        replies := w.replies.tail } := by
  rw [step, if_pos rfl, carryOut, hordinary]

/-- A command about a savepoint is carried out when it succeeds. -/
theorem step_command {w : Ledger} {r : Result} (hreply : (w.replies.headD .nothing).result = .ok r)
    (later : Later) (raw : RawId) (c : SavepointCommand) :
    step later raw w (.executed raw (.text c.text) []) =
      { w with replies := w.replies.tail }.command later c := by
  rw [step, if_pos rfl, carryOut, SavepointCommand.ofStatement?_text]
  cases hhead : w.replies.headD .nothing with
  | refused reason =>
    rw [hhead] at hreply
    cases hreply
  | done columns rows rowCount lastInsertId => rfl

/-! ## Commands behind newer savepoints -/

variable {name : String} {newer : Entries (List Sent)}

/-- Newer savepoints of other names do not hide one. -/
theorem since_append (hnewer : ∀ entry ∈ newer, entry.1 ≠ name) (saved : List Sent)
    (old : Entries (List Sent)) :
    since name (newer ++ (name, saved) :: old) = (name, saved) :: old := by
  rw [since, List.dropWhile_append_of_pos fun entry h => bne_iff_ne.mpr (hnewer entry h)]
  exact List.dropWhile_cons_of_neg (by simp)

theorem after_append (hnewer : ∀ entry ∈ newer, entry.1 ≠ name) (saved : List Sent)
    (old : Entries (List Sent)) : after name (newer ++ (name, saved) :: old) = newer := by
  rw [after, List.takeWhile_append_of_pos fun entry h => bne_iff_ne.mpr (hnewer entry h),
    List.takeWhile_cons_of_neg (by simp), List.append_nil]

/-- Restoring a savepoint behind newer ones of other names takes the pending effects back to it.
The savepoint stays, behind some of the newer ones. -/
theorem restore_append (hnewer : ∀ entry ∈ newer, entry.1 ≠ name) (later : Later)
    (saved : List Sent) (old : Entries (List Sent)) (w : Ledger)
    (hw : w.savepoints = newer ++ (name, saved) :: old) :
    ∃ remaining ⊆ newer, w.restore later name =
      { w with pending := saved, savepoints := remaining ++ (name, saved) :: old } := by
  have hsince := since_append hnewer saved old
  rw [← hw] at hsince
  rw [restore, hsince]
  cases later with
  | kept => exact ⟨newer, List.Subset.refl _, by rw [← hw]⟩
  | forgotten => exact ⟨[], List.nil_subset _, rfl⟩

/-- Releasing a savepoint behind newer ones of other names forgets it, and perhaps the newer
ones. -/
theorem release_append (hnewer : ∀ entry ∈ newer, entry.1 ≠ name) (later : Later)
    (saved : List Sent) (old : Entries (List Sent)) (w : Ledger)
    (hw : w.savepoints = newer ++ (name, saved) :: old) :
    ∃ remaining ⊆ newer, w.release later name = { w with savepoints := remaining ++ old } := by
  have hsince := since_append hnewer saved old
  have hafter := after_append hnewer saved old
  rw [← hw] at hsince hafter
  rw [release, hsince]
  cases later with
  | kept => exact ⟨newer, List.Subset.refl _, by rw [hafter]⟩
  | forgotten => exact ⟨[], List.nil_subset _, rfl⟩

end Ledger

end TableOps
