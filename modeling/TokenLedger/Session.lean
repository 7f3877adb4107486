/-
# Sessions

A session is a run of commands on a store that is empty at first. Each command acts on the store as
its predecessors left it and either succeeds or fails; one that fails leaves the store as it was.
The clock counts the commands.

Key definitions: `Command`, `Command.Fault`, `Outcome`, `Command.run`, `Session.run`.
-/
import TokenLedger.Service.Respond

namespace TokenLedger

/-- The record of a failure that is to be made. -/
structure ErrorNote where
  version : Option Int
  /-- The kind of failure, which has to be named. -/
  label : Option String
  message : Option String
  traced : Bool
  resolved : Bool
  diagnostics : Option String
deriving DecidableEq, Repr

/-- What can be done to a store. Transactions and activities are given as data. -/
inductive Command where
  | processTransaction (transaction : Json)
  | processBatch (transactions : List Json)
  | insertActivities (activities : List Json)
  | keysOf (versions : List Int)
  | find (key : ActivityKey)
  | activitiesOf (version : Int)
  | listActivities (f : ActivityFilter) (p : Page)
  | noteError (e : ErrorNote)
  | listErrors (f : ErrorFilter) (p : Page)
  | clearErrors (version : Int)
  | request (r : Request)

/-- Why a command fails. -/
inductive Command.Fault where
  /-- The data do not fit. -/
  | invalid (issues : List Issue)
  /-- The store cannot take in what is given, or find what is asked for. -/
  | store (f : Store.Fault)
  /-- A value that has to be there is missing. -/
  | incomplete
deriving DecidableEq, Repr

/-- What a command gives. -/
inductive Outcome where
  /-- The activities as they were computed, unless the transaction was refused. -/
  | processed (activities : Option (List Activity))
  | tallied (t : Tally)
  | inserted (n : Nat)
  | keys (ks : List ActivityKey)
  | found (a : Option Activity)
  | activities (as : List Activity)
  | activityPage (l : Listing Activity)
  | noted (e : ErrorRecord)
  | errorPage (l : Listing ErrorRecord)
  | cleared (n : Nat)
  | replied (r : Reply)

/-- The values of data that pass a check; the issues are those of the first that does not. -/
def checkEach {α : Type} (check : Check α) : List Json → Checked (List α)
  | [] => .ok []
  | v :: vs =>
    match check v with
    | .error issues => .error issues
    | .ok a =>
      match checkEach check vs with
      | .error issues => .error issues
      | .ok as => .ok (a :: as)

/-- Whether all numbers fit the store. -/
def allFit (ns : List Int) : Bool :=
  ns.all Whole.fits

/-- Whether a page can be asked for. -/
def Page.fits (p : Page) : Bool :=
  allFit (p.limit.toList ++ p.offset.toList)

namespace Command

/-- The result of a question to the store, if its numbers fit. -/
def ask (s : Store) (numbers : Bool) (o : Outcome) : Except Fault (Store × Outcome) :=
  if numbers then .ok (s, o) else .error (.store .outOfRange)

/-- What a command gives at a time, and the store after it. -/
def run (s : Store) (time : Nat) : Command → Except Fault (Store × Outcome)
  | .processTransaction v =>
    match Transaction.check .direct v with
    | .error issues => .error (.invalid issues)
    | .ok t =>
      match s.process time t with
      | .error f => .error (.store f)
      | .ok (s, as) => .ok (s, .processed as)
  | .processBatch vs =>
    match checkEach (Transaction.check .direct) vs with
    | .error issues => .error (.invalid issues)
    | .ok ts =>
      match s.processBatch time ts with
      | .error f => .error (.store f)
      | .ok (s, tally) => .ok (s, .tallied tally)
  | .insertActivities vs =>
    match checkEach Activity.check vs with
    | .error issues => .error (.invalid issues)
    | .ok as =>
      if s.admits as then
        let (s, n) := s.insert as
        .ok (s, .inserted n)
      else .error (.store .outOfRange)
  | .keysOf versions => ask s (allFit versions) (.keys (s.keysOf versions))
  | .find key =>
    ask s (allFit [key.version, key.creationNumber, key.sequenceNumber]) (.found (s.find? key))
  | .activitiesOf version => ask s (Whole.fits version) (.activities (s.activitiesOf version))
  | .listActivities f p => ask s p.fits (.activityPage (s.listActivities f p))
  | .noteError e =>
    match allFit e.version.toList, e.label with
    | false, _ => .error (.store .outOfRange)
    | true, none => .error .incomplete
    | true, some label =>
      let record : ErrorRecord :=
        ⟨e.version, label, e.message, e.traced, e.resolved, e.diagnostics, time⟩
      .ok (s.record record, .noted record)
  | .listErrors f p => ask s p.fits (.errorPage (s.listErrors f p))
  | .clearErrors version =>
    let (t, n) := s.clear version
    if Whole.fits version then .ok (t, .cleared n) else .error (.store .outOfRange)
  | .request r =>
    let (s, reply) := Service.respond s time r
    .ok (s, .replied reply)

end Command

namespace Session

/-- The results of commands from a time on, and the store after them. -/
def runFrom (s : Store) (time : Nat) : List Command → Store × List (Except Command.Fault Outcome)
  | [] => (s, [])
  | c :: cs =>
    match c.run s time with
    | .ok (t, o) =>
      let (u, os) := runFrom t (time + 1) cs
      (u, .ok o :: os)
    | .error f =>
      let (u, os) := runFrom s (time + 1) cs
      (u, .error f :: os)

/-- The results of the commands of a session. -/
def run (cs : List Command) : List (Except Command.Fault Outcome) :=
  (runFrom .empty 0 cs).2

end Session
end TokenLedger
