/-
# The service

What the service answers, and what becomes of the store. Only a batch that is taken in changes the
store. A request that does not fit is answered with all its issues, unless a value to be quoted in
the answer could not be written: then, as wherever a number does not fit the store or diagnostics
cannot be shown, the service fails. A request for the head of an answer gets no value.

Key definitions: `Service.quotable`, `Service.withBody`, `Service.answer`, `Service.handle`,
`Service.respond`.
-/
import TokenLedger.Ingest
import TokenLedger.Json.Encoding
import TokenLedger.Schema.Report
import TokenLedger.Service.Request
import TokenLedger.Store.Listing

namespace TokenLedger
namespace Service

/-! ### Replies -/

/-- The reply to a request that went well. -/
def succeed (v : Json) : Reply :=
  ⟨200, some v⟩

/-- The reply of a failure of the service. -/
def fail : Reply :=
  ⟨500, none⟩

/-- A reply that says in words, or as a value, what is wrong. -/
def refuse (status : Nat) (detail : Json) : Reply :=
  ⟨status, some (.obj [("detail", detail)])⟩

/-- The reply to a request with issues. -/
def unfit (issues : List Issue) : Reply :=
  refuse 422 (Issue.report issues)

/-! ### Bodies -/

/-- The JSON text of stored diagnostics. -/
def dialect : Json.Dialect :=
  ⟨945, true, false, .wholeNumbers⟩

/-- The JSON text of bodies. In the wide spellings a surrogate may stand by itself. -/
def bodyDialect : Json.Dialect :=
  { dialect with substitutes := true }

/-- The part of a value at a place, as far as the place can be followed. -/
def part (v : Json) : List Segment → Json
  | [] => v
  | .field name :: rest =>
    match v with
    | .obj ms =>
      match Json.last? name ms with
      | some w => part w rest
      | none => v
    | _ => v
  | .item index :: rest =>
    match v with
    | .arr vs =>
      match vs[index]? with
      | some w => part w rest
      | none => v
    | _ => v

/-- Whether a member is left out where a value is quoted: its name has the mark `_sa` in front. -/
def hidden (name : RawText) : Bool :=
  ("_sa".toList.map Char.toNat).isPrefixOf name.codes

mutual

/-- A value as it is quoted. -/
def quoted : Json → Json
  | .arr items => .arr (quotedItems items)
  | .obj members => .obj (quotedMembers members)
  | v => v

def quotedItems : List Json → List Json
  | [] => []
  | v :: rest => quoted v :: quotedItems rest

def quotedMembers : Json.Members → Json.Members
  | [] => []
  | (k, v) :: rest => if hidden k then quotedMembers rest else (k, quoted v) :: quotedMembers rest

end

/-- Whether a value can be quoted: what is seen of it has finite numbers only, and its strings are
text. -/
def quotable (v : Json) : Bool :=
  (quoted v).finite && (quoted v).readable

/-- The reply to a body that cannot be taken for a JSON text. -/
def unparsable : Reply :=
  refuse 400 (.str "There was an error parsing the body")

/-- The value of a body, or the reply to a body that has none. -/
def valueOfBody (text : String) : Except Reply Json :=
  match Json.Encoding.characters? text with
  | none => .error unparsable
  | some cs =>
    match Json.readCharacters bodyDialect cs with
    | .ok v => .ok v.merged
    | .error .malformed => .error (unfit [⟨[.field "body"], .notJson⟩])
    | .error _ => .error unparsable

/-- What follows from a body that fits, or the reply to one that does not. -/
def withBody {α : Type} (body : Option String) (check : Check α) : Except Reply α :=
  match body with
  | none => .error (unfit [⟨[.field "body"], .missing⟩])
  | some text =>
    if text.isEmpty then .error (unfit [⟨[.field "body"], .missing⟩])
    else
      match valueOfBody text with
      | .error reply => .error reply
      | .ok v =>
        match check v with
        | .ok a => .ok a
        | .error issues =>
          if issues.all fun i => quotable (part v i.place) then
            .error (unfit (issues.map (Issue.within (.field "body"))))
          else .error fail

/-- The body of a batch: an object with a list of transactions. -/
def checkBatch : Check (List Transaction) :=
  Check.record .request fun ms =>
    Check.required ms "transactions" (Check.listOf (Transaction.check .request))

/-! ### Query values -/

/-- A named value, with a value for its absence. -/
def asked {α : Type} (r : Request) (name : String) (absent : α) (check : Check α) : Checked α :=
  match r.value? name with
  | some s => ((check (.str s)).under (.field name)).under (.field "query")
  | none => .value absent

/-- The number of rows that is asked for. -/
def askedLimit (r : Request) : Checked Int :=
  asked r "limit" Page.usualLimit (Check.between 1 200)

/-- The number of rows to be left out. -/
def askedOffset (r : Request) : Checked Int :=
  asked r "offset" 0 (Check.atLeast 0)

/-! ### Answers -/

/-- The answer to a transaction on trial. Nothing is stored. -/
def normalize (t : Transaction) : Reply :=
  match t.activities with
  | .ok as =>
    if t.writable then
      succeed (.obj [("version", .whole t.version), ("activities", .arr (as.map Activity.toJson))])
    else fail
  | .error (.refused r) =>
    refuse 422 (.obj [("error_type", .str r.label), ("message", .str (r.message t.version))])
  | .error _ => fail

/-- The answer to a batch, and the store with it. -/
def ingest (s : Store) (time : Nat) (ts : List Transaction) : Store × Reply :=
  match s.processBatch time ts with
  | .ok (s, tally) => (s, succeed tally.toJson)
  | .error _ => (s, fail)

/-- The answer to a question for the activities of a version. -/
def showTransaction (s : Store) (version : String) : Reply :=
  match Check.int (.str version) with
  | .error issues =>
    unfit (issues.map fun i => (i.within (.field "version")).within (.field "path"))
  | .ok n =>
    if Whole.fits n then succeed (.arr ((s.activitiesOf n).map Activity.toStoredJson)) else fail

/-- The answer to a question for activities. -/
def showActivities (s : Store) (r : Request) : Reply :=
  match ((Checked.value Prod.mk).ap (askedLimit r)).ap (askedOffset r) with
  | .error issues => unfit issues
  | .ok (limit, offset) =>
    if Whole.fits offset then
      let address := (r.value? "address").filter (!·.isEmpty)
      let f : ActivityFilter :=
        ⟨r.value? "token_data_id_hash", r.value? "collection_data_id_hash",
          address.map Address.canonical⟩
      let l := s.listActivities f ⟨some limit, some offset⟩
      succeed (.obj [("activities", .arr (l.rows.map Activity.toStoredJson)),
        ("total", .whole l.total), ("limit", .whole limit), ("offset", .whole offset)])
    else fail

/-- The most values one inside the other that a member of shown diagnostics may be. -/
def maxHeight : Nat := 255

/-- Members as they are shown. Their names are shown as text, but whatever is inside a member has to
be text already, and must not be nested too deeply. -/
def shownMembers (ms : Json.Members) : Option Json :=
  let ms := Json.mergedMembers ms []
  if ms.all fun m => m.2.readable && m.2.height ≤ maxHeight then
    some (.obj (Json.mergedMembers (ms.map fun m => (.text m.1.shown, m.2)) []))
  else none

/-- The diagnostics of a record as they are shown: an object, or null if there is none or the text
is not JSON. Other values cannot be shown. -/
def shownDiagnostics (e : ErrorRecord) : Option Json :=
  match e.diagnostics with
  | none => some .null
  | some text =>
    if text.isEmpty then some .null
    else
      match Json.read dialect text with
      | .error .malformed => some .null
      | .ok .null => some .null
      | .ok (.obj ms) => shownMembers ms
      | _ => none

/-- A record as it is shown. -/
def shownError (e : ErrorRecord) : Option Json :=
  (shownDiagnostics e).map fun d => e.toJsonWith d

/-- The answer to a question for records of failures. -/
def showErrors (s : Store) (r : Request) : Reply :=
  let resolved := asked r "resolved" none fun v => (Check.truth v).map some
  match (((Checked.value fun a b c => (a, b, c)).ap resolved).ap (askedLimit r)).ap
    (askedOffset r) with
  | .error issues => unfit issues
  | .ok (resolved, limit, offset) =>
    if Whole.fits offset then
      let l := s.listErrors ⟨r.value? "error_type", resolved⟩ ⟨some limit, some offset⟩
      match l.rows.mapM shownError with
      | none => fail
      | some rows =>
        succeed (.obj [("errors", .arr rows), ("total", .whole l.total), ("limit", .whole limit),
          ("offset", .whole offset)])
    else fail

/-- The answer of a route, and the store after it. -/
def answer (s : Store) (time : Nat) (r : Request) : Route → Store × Reply
  | .health => (s, succeed (.obj [("status", .str "ok"), ("version", .str "0.1.0")]))
  | .listActivities => (s, showActivities s r)
  | .transaction version => (s, showTransaction s version)
  | .listErrors => (s, showErrors s r)
  | .normalize =>
    match withBody r.body (Transaction.check .request) with
    | .ok t => (s, normalize t)
    | .error reply => (s, reply)
  | .ingest =>
    match withBody r.body checkBatch with
    | .ok ts => ingest s time ts
    | .error reply => (s, reply)

/-- What is done about a request at a time: the store after it, and the reply. -/
def handle (s : Store) (time : Nat) (r : Request) : Store × Reply :=
  match r.target with
  | .route route =>
    if r.verb = route.method then answer s time r route
    else (s, refuse 405 (.str "Method Not Allowed"))
  | .elsewhere => (s, ⟨307, some .null⟩)
  | .nowhere => (s, refuse 404 (.str "Not Found"))

/-- The reply to a request at a time, and the store after it. -/
def respond (s : Store) (time : Nat) (r : Request) : Store × Reply :=
  let (t, reply) := handle s time r
  (t, if r.verb = "HEAD" then ⟨reply.status, some .null⟩ else reply)

end Service
end TokenLedger
