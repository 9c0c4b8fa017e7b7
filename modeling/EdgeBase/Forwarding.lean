import EdgeBase.Lib.Wire
import EdgeBase.ObjectSpec
import EdgeBase.Routes
import EdgeBase.Access.Platform

/-!
# Forwarding to an object

The end of `routeToDO`: a request is sent to the Durable Object, which may ask the Worker to
authorize its creation first; then the request is sent again.  The object asks in the body of its
answer, where the rows of users stand too.

* `forwarding_counterexample` : a row with a column `needsCreate` is inserted twice.
-/

namespace EdgeBase

open Option

/-! ### The object -/

/-- A running object: its database, and whether it has run its lazy initialization. -/
structure Instance where
  store : Store := {}
  initialized : Bool := false

def Instance.reset (o : Instance) : Instance := { o with initialized := false }

namespace DatabaseDO

variable (d : DatabaseDO)

/-- The instance id of `parseDbDoName`: the text after the first colon, if there is one. -/
def instanceId : Option String :=
  match d.doName.toList.dropWhile (· ≠ ':') with
  | [] => none
  | _ :: id => some (String.ofList id)

def ownBlock : Option DbBlock :=
  if d.doName = "" then none else d.config.block (parseDbDoName d.doName)

/-- An object that needs no authorization: it is not one of a dynamic block. -/
def isStaticDO : Bool :=
  d.doName = "" || "_".toList <+: d.doName.toList ||
    d.ownBlock.any fun block => !isDynamicDbBlock block && d.instanceId.all (· = "")

def needsCreate : Response where
  status := 201
  body := [("needsCreate", .bool true), ("namespace", .str (parseDbDoName d.doName))] ++
    (d.instanceId.map fun id => ("id", Json.str id)).toList

/-- The answer to a name that does not fit its block. -/
def invalidInstance (message : String) : Response where
  status := 400
  body := [("code", jsonNat 400), ("message", .str message),
    ("error", .str "INVALID_DB_INSTANCE_ID")]

/-- The answer, if any, that a request gets before the lazy initialization. -/
def handshake (authorized : Bool) (o : Instance) : Option Response :=
  let ns := parseDbDoName d.doName
  if o.initialized then none
  else if d.ownBlock.any isDynamicDbBlock && d.instanceId.all (· = "") then
    some (invalidInstance s!"instanceId is required for dynamic namespace '{ns}'")
  else if d.ownBlock.any (fun block => !isDynamicDbBlock block) && d.instanceId.any (· ≠ "") then
    some (invalidInstance s!"instanceId is not allowed for single-instance namespace '{ns}'")
  else if !d.isStaticDO && !authorized && !o.store.has "_meta" then some d.needsCreate
  else none

/-- The database on which the table handlers run. -/
def started (o : Instance) : Store :=
  if o.initialized then o.store else (d.initializeSchema o.store).state

/-- The answer of a handler; an error has a code and a message. -/
def httpAnswer : Except HttpError Response → Response
  | .ok r => r
  | .error e => { status := e.status, body := [("code", jsonNat e.status), ("message", .str e.message)] }

/-- `fetch`: the answer, the object after it, and the runs of the table handler, each with what it
did. -/
def fetch (env : Env) (caller : Caller) (req : Request) (authorized : Bool) (o : Instance) :
    Response × Instance × List (List Event) :=
  match d.handshake authorized o with
  | some answer => (answer, o, [])
  | none =>
    let out := d.serve env caller req (d.started o)
    (httpAnswer out.result, ⟨out.state, true⟩, [out.log])

/-- Whether a request is sent with `GET`. -/
def Request.isRead : Request → Bool
  | .list _ _ | .search _ _ | .count _ _ | .get _ _ _ => true
  | _ => false

end DatabaseDO

/-! ### The Worker -/

/-- The value that awaiting a result gives; one that never comes lets nothing pass. -/
def awaited : RuleResult → Bool
  | .value b | .resolves b _ => b
  | .throws | .rejects _ | .pending => false

/-- A write that `routeToDO` forwards to an object. -/
structure ForwardedWrite where
  config : EdgeBaseConfig
  ns : String
  instanceId : Option String
  block : DbBlock
  doName : String
  env : Env
  caller : Caller
  req : DatabaseDO.Request
  resolved : ∃ dynamic, resolveDbTarget config ns instanceId = .ok (block, dynamic)
  backend : chooseBackend config ns instanceId block = .object doName
  isWrite : req.isRead = false

namespace ForwardedWrite

variable (w : ForwardedWrite)

def object : DatabaseDO := ⟨w.config, w.doName⟩

/-- `stub.fetch`, which throws `Unit`. -/
def stubFetch (authorized : Bool) : Audited (Wire Instance) (List Event) Unit Response :=
  Wire.send Instance.reset () (w.object.fetch w.env w.caller w.req authorized)

def fetchDOWithRetry (authorized safeToRetry : Bool) :
    Audited (Wire Instance) (List Event) Unit Response :=
  .recover (w.stubFetch authorized) fun e => if safeToRetry then w.stubFetch authorized else .fail e

/-- `body?.needsCreate`, read off an answer of status 201. -/
def asksForCreation (res : Response) : Bool :=
  res.status = 201 && (res.body.lookup "needsCreate").any Json.truthy

/-- The id that `canCreate` is called with: `body.id ?? normalizedInstanceId ?? namespace`. -/
def createId (res : Response) : String :=
  match res.body.lookup "id" with
  | some (.str id) => id
  | none | some .null => w.instanceId.getD w.ns
  | some v => w.env.textOf v

/-- Whether the Worker allows the creation that an answer asks for. -/
def createAllowed (res : Response) : Bool :=
  !isDynamicDbBlock w.block || w.caller.isServiceKey ||
    w.block.canCreateFn.any fun canCreate => awaited (canCreate w.caller.auth (w.createId res))

def cannotCreate : Response where
  status := 403
  body := [("code", jsonNat 403), ("message", .str "DB creation not allowed."),
    ("error", .str "CANNOT_CREATE_DB")]

/-- `routeToDO`, from the call of the object on. -/
def route : Audited (Wire Instance) (List Event) Unit Response := do
  let res ← w.fetchDOWithRetry false w.req.isRead
  if asksForCreation res then
    if w.createAllowed res then w.fetchDOWithRetry true true else pure cannotCreate
  else pure res

/-- Whatever calls fail, the object runs the table handler at most once. -/
def AtMostOnce (o : Instance) : Prop := ∀ fates, (w.route ⟨o, fates⟩).log.length ≤ 1

/-- The object asks for an authorization, and the Worker grants it. -/
def Creates (o : Instance) : Prop :=
  w.object.handshake false o = some w.object.needsCreate ∧ w.createAllowed w.object.needsCreate

/-- The request is a create that answers a row in which `needsCreate` is truthy, and the Worker takes
it for a request to create the object, which it grants. -/
def AnswersNeedsCreate (o : Instance) : Prop :=
  w.object.handshake false o = none ∧ ∃ name body upsert row, w.req = .create name body upsert ∧
    (w.object.create w.env w.caller name body upsert (w.object.started o)).result =
      .ok { status := 201, body := row } ∧
    (row.lookup "needsCreate").any Json.truthy ∧ w.createAllowed { status := 201, body := row }

/-- Nothing is sent twice: the object is not created for the request, and answers no row that looks
like a request to create it. -/
def Quiet (o : Instance) : Prop := ¬w.Creates o ∧ ¬w.AnswersNeedsCreate o

end ForwardedWrite

/-! ### Answers of status 201 -/

namespace DatabaseDO

variable {d : DatabaseDO} {env : Env} {caller : Caller} {name : String}

/-- A computation that answers, if at all, with another status than 201. -/
abbrev NotCreated (m : Handler Response) : Prop :=
  Audited.Ensures (fun _ => True) (fun _ => True) (fun r => r.status ≠ 201) m

theorem notCreated_ok {body : Row} : NotCreated (pure { body }) :=
  .pure (show (200 : ℕ) ≠ 201 by decide)

theorem notCreated_patch (id : String) (body : Row) :
    NotCreated (d.patch env caller name id body) := by
  refine .bind (.triv _) fun _ _ => .bind (.triv _) fun config _ => .bind (.triv _) fun _ _ =>
    .bind (.triv _) fun _ _ => .bind (.triv _) fun existing _ => ?_
  cases existing with
  | nil => exact .fail _
  | cons row rest =>
    exact .bind (.triv _) fun _ _ => .bind (.triv _) fun _ _ => .ite (fun _ => notCreated_ok)
      fun _ => .bind (.triv _) fun _ _ => .bind (.triv _) fun _ _ => .bind (.triv _) fun _ _ =>
        .bind (.triv _) fun _ _ => notCreated_ok

theorem notCreated_delete (id : String) : NotCreated (d.delete env caller name id) := by
  refine .bind (.triv _) fun _ _ => .bind (.triv _) fun _ _ => .bind (.triv _) fun existing _ => ?_
  cases existing with
  | nil => exact .fail _
  | cons row rest =>
    exact .bind (.triv _) fun _ _ => .bind (.triv _) fun _ _ => .bind (.triv _) fun _ _ =>
      notCreated_ok

theorem notCreated_batch (body : BatchBody) (upsert : Option String) :
    NotCreated (d.batch env caller name body upsert) :=
  .bind (.triv _) fun _ _ => .bind (.triv _) fun _ _ => .bind (.triv _) fun _ _ =>
    .bind (.triv _) fun _ _ => .bind (.triv _) fun _ _ => .bind (.triv _) fun _ _ =>
      .bind (.triv _) fun _ _ => notCreated_ok

theorem notCreated_batchByFilter (body : FilterBody) :
    NotCreated (d.batchByFilter env caller name body) :=
  .bind (.triv _) fun _ _ => .bind (.triv _) fun _ _ => .bind (.triv _) fun _ _ =>
    .bind (.triv _) fun _ _ => .bind (.triv _) fun _ _ => .bind (.triv _) fun _ _ => notCreated_ok

theorem status_transactResponse (full : Bool) (count : ℕ) (results : List (List Row)) :
    (transactResponse full count results).status = 200 := by
  unfold transactResponse
  split <;> rfl

theorem notCreated_transact (body : TransactBody) : NotCreated (d.transact env caller body) := by
  unfold transact
  split
  · exact .pure (by decide)
  · refine .bind (.triv _) fun _ _ => .bind (.triv _) fun ops _ => .bind (.triv _) fun _ _ =>
      .bind (.triv _) fun results _ => .pure ?_
    rw [status_transactResponse]
    decide

theorem create_of_created {req : Request} (hwrite : req.isRead = false) {s : Store} {r : Response}
    (hr : (d.serve env caller req s).result = .ok r) (hstatus : r.status = 201) :
    ∃ name body upsert, req = .create name body upsert := by
  have hnot : ∀ {m : Handler Response}, NotCreated m → (m s).result = .ok r → False :=
    fun h hm => (h s trivial).2.2 r hm hstatus
  cases req with
  | list | search | count | get => exact absurd hwrite (by simp [Request.isRead])
  | create name body upsert => exact ⟨name, body, upsert, rfl⟩
  | patch name id body => exact (hnot (notCreated_patch id body) hr).elim
  | delete name id => exact (hnot (notCreated_delete id) hr).elim
  | batch name body upsert => exact (hnot (notCreated_batch body upsert) hr).elim
  | batchByFilter name body => exact (hnot (notCreated_batchByFilter body) hr).elim
  | transact body => exact (hnot (notCreated_transact body) hr).elim

end DatabaseDO

namespace ForwardedWrite

variable {w : ForwardedWrite} {o : Instance}

/-- Before the lazy initialization the object refuses a request or asks for an authorization. -/
theorem handshake_cases {d : DatabaseDO} {authorized : Bool} {answer : Response}
    (h : d.handshake authorized o = some answer) :
    answer.status = 400 ∨ authorized = false ∧ answer = d.needsCreate := by
  unfold DatabaseDO.handshake at h
  dsimp only at h
  split_ifs at h with hinit hrequired hforbidden hnew
  · obtain rfl := some.inj h
    exact .inl rfl
  · obtain rfl := some.inj h
    exact .inl rfl
  · simp only [Bool.and_eq_true, Bool.not_eq_true'] at hnew
    exact .inr ⟨hnew.1.2, (some.inj h).symm⟩

theorem handshake_authorized {d : DatabaseDO} (h : d.handshake false o = some d.needsCreate)
    (store : Store) : d.handshake true { o with store } = none := by
  have h400 : ∀ message, DatabaseDO.invalidInstance message ≠ d.needsCreate :=
    fun message heq => absurd (congrArg Response.status heq) (by simp [DatabaseDO.invalidInstance,
      DatabaseDO.needsCreate])
  unfold DatabaseDO.handshake at h ⊢
  dsimp only at h ⊢
  split_ifs at h with hinit hrequired hforbidden hnew
  · exact absurd (some.inj h) (h400 _)
  · exact absurd (some.inj h) (h400 _)
  · rw [if_neg hinit, if_neg hrequired, if_neg hforbidden]
    simp

theorem asksForCreation_needsCreate (d : DatabaseDO) : asksForCreation d.needsCreate = true := by
  simp [asksForCreation, DatabaseDO.needsCreate, Json.truthy]

theorem fetch_of_none {d : DatabaseDO} {env : Env} {caller : Caller} {req : DatabaseDO.Request}
    {authorized : Bool} (h : d.handshake authorized o = none) :
    d.fetch env caller req authorized o =
      (DatabaseDO.httpAnswer (d.serve env caller req (d.started o)).result,
        ⟨(d.serve env caller req (d.started o)).state, true⟩,
        [(d.serve env caller req (d.started o)).log]) := by
  rw [DatabaseDO.fetch, h]

theorem length_fetch (d : DatabaseDO) (env : Env) (caller : Caller) (req : DatabaseDO.Request)
    (authorized : Bool) (o : Instance) : (d.fetch env caller req authorized o).2.2.length ≤ 1 := by
  unfold DatabaseDO.fetch
  split
  · exact Nat.zero_le 1
  · exact Nat.le_refl 1

theorem fetchDOWithRetry_write : w.fetchDOWithRetry false w.req.isRead = w.stubFetch false := by
  rw [w.isWrite]
  exact Audited.recover_fail (w.stubFetch false)

/-- What the object answered, if it ran the table handler, asks for a creation only as a row. -/
theorem answersNeedsCreate_of_asks (hnone : w.object.handshake false o = none)
    (hasks : asksForCreation (w.object.fetch w.env w.caller w.req false o).1 = true)
    (hallowed : w.createAllowed (w.object.fetch w.env w.caller w.req false o).1 = true) :
    w.AnswersNeedsCreate o := by
  rw [fetch_of_none hnone] at hasks hallowed
  dsimp only at hasks hallowed
  cases hresult : (w.object.serve w.env w.caller w.req (w.object.started o)).result with
  | error e =>
    rw [hresult] at hasks
    simp [asksForCreation, DatabaseDO.httpAnswer, List.lookup_cons] at hasks
  | ok r =>
    rw [hresult] at hasks hallowed
    simp only [DatabaseDO.httpAnswer, asksForCreation, Bool.and_eq_true] at hasks
    have hstatus : r.status = 201 := of_decide_eq_true hasks.1
    obtain ⟨name, body, upsert, hreq⟩ := DatabaseDO.create_of_created w.isWrite hresult hstatus
    obtain ⟨status, row⟩ := r
    obtain rfl : status = 201 := hstatus
    rw [hreq] at hresult
    exact ⟨hnone, name, body, upsert, row, hreq, hresult, hasks.2, hallowed⟩

theorem atMostOnce_of_quiet (h : w.Quiet o) : w.AtMostOnce o := by
  intro fates
  have hlength := length_fetch w.object w.env w.caller w.req false o
  unfold route
  rw [fetchDOWithRetry_write]
  rcases Wire.send_cases Instance.reset () (w.object.fetch w.env w.caller w.req false) ⟨o, fates⟩
    with ⟨hresult, -, hlog⟩ | ⟨hresult, hlog⟩
  · rw [stubFetch, Audited.bind_of_ok hresult]
    dsimp only
    rw [hlog]
    -- the request is not sent again
    have hlast : ∀ s, Outcome.log ((if asksForCreation
        (w.object.fetch w.env w.caller w.req false o).1 then
        if w.createAllowed (w.object.fetch w.env w.caller w.req false o).1 then
          w.fetchDOWithRetry true true else pure cannotCreate
        else pure (w.object.fetch w.env w.caller w.req false o).1 :
          Audited (Wire Instance) (List Event) Unit Response) s) = [] := by
      intro s
      by_cases hasks : asksForCreation (w.object.fetch w.env w.caller w.req false o).1 = true
      · have hdenied : ¬w.createAllowed (w.object.fetch w.env w.caller w.req false o).1 = true := by
          intro hallowed
          cases hshake : w.object.handshake false o with
          | none => exact h.2 (answersNeedsCreate_of_asks hshake hasks hallowed)
          | some answer =>
            have hanswer : (w.object.fetch w.env w.caller w.req false o).1 = answer := by
              rw [DatabaseDO.fetch, hshake]
            rw [hanswer] at hasks hallowed
            rcases handshake_cases hshake with h400 | ⟨-, rfl⟩
            · simp [asksForCreation, h400] at hasks
            · exact h.1 ⟨hshake, hallowed⟩
        rw [if_pos hasks, if_neg hdenied]
        rfl
      · rw [if_neg hasks]
        rfl
    rw [List.length_append, hlast]
    exact hlength
  · rw [stubFetch, Audited.bind_of_error hresult]
    rcases hlog with hlog | hlog
    · rw [hlog]
      exact Nat.zero_le 1
    · rw [hlog]
      exact hlength

theorem log_route_of_asks {res : Response} {o' : Instance} {runs : List (List Event)}
    (hfetch : w.object.fetch w.env w.caller w.req false o = (res, o', runs))
    (hasks : asksForCreation res = true) (hallowed : w.createAllowed res = true)
    (fates : List Delivery) : (w.route ⟨o, .answered :: fates⟩).log =
      runs ++ (w.fetchDOWithRetry true true ⟨o', fates⟩).log := by
  have hsend : w.stubFetch false ⟨o, .answered :: fates⟩ = ⟨.ok res, ⟨o', fates⟩, runs⟩ := by
    rw [stubFetch, Wire.send]
    simp only [hfetch]
  rw [route, fetchDOWithRetry_write, Audited.bind_of_run hsend, if_pos hasks, if_pos hallowed]

/-- An object that the request creates runs the handler twice when the authorized call is cut. -/
theorem not_atMostOnce_of_creates (h : w.Creates o) : ¬w.AtMostOnce o := by
  intro honce
  obtain ⟨hshake, hallowed⟩ := h
  have hfetch : w.object.fetch w.env w.caller w.req false o = (w.object.needsCreate, o, []) := by
    rw [DatabaseDO.fetch, hshake]
  have hlength := honce [.answered, .cut true, .answered]
  rw [log_route_of_asks hfetch (asksForCreation_needsCreate _) hallowed] at hlength
  have htwice : (w.fetchDOWithRetry true true ⟨o, [.cut true, .answered]⟩).log =
      (w.object.fetch w.env w.caller w.req true o).2.2 ++ (w.object.fetch w.env w.caller w.req true
        (w.object.fetch w.env w.caller w.req true o).2.1.reset).2.2 := rfl
  -- the object is not initialized after the reset, and authorized again
  have hinit : o.initialized = false := by
    by_contra hinit
    rw [DatabaseDO.handshake, if_pos (Bool.eq_true_of_not_eq_false hinit)] at hshake
    exact absurd hshake nofun
  have hfirst := handshake_authorized hshake o.store
  have hreset : ∀ store, (⟨store, false⟩ : Instance) = { o with store } := by
    intro store
    rw [← hinit]
  have hsecond := fun store => (congrArg (w.object.handshake true) (hreset store)).trans
    (handshake_authorized hshake store)
  rw [htwice, fetch_of_none hfirst] at hlength
  dsimp only [Instance.reset] at hlength
  rw [fetch_of_none (hsecond _)] at hlength
  have htwo : 2 ≤ 1 := hlength
  omega

theorem not_atMostOnce_of_answers (h : w.AnswersNeedsCreate o) : ¬w.AtMostOnce o := by
  intro honce
  obtain ⟨hshake, name, body, upsert, row, hreq, hrow, hneeds, hallowed⟩ := h
  have hserve : (w.object.serve w.env w.caller w.req (w.object.started o)).result =
      .ok { status := 201, body := row } := by
    rw [hreq]
    exact hrow
  have hfetch : w.object.fetch w.env w.caller w.req false o = _ := fetch_of_none hshake
  rw [hserve] at hfetch
  have hasks : asksForCreation { status := 201, body := row } = true := by
    simp [asksForCreation, hneeds]
  have hlength := honce [.answered]
  rw [log_route_of_asks hfetch hasks hallowed] at hlength
  have hagain : ∀ store, w.object.handshake true ⟨store, true⟩ = none := fun _ => rfl
  have honce' : (w.fetchDOWithRetry true true
      ⟨⟨(w.object.serve w.env w.caller w.req (w.object.started o)).state, true⟩, []⟩).log =
      (w.object.fetch w.env w.caller w.req true
        ⟨(w.object.serve w.env w.caller w.req (w.object.started o)).state, true⟩).2.2 := rfl
  rw [honce', fetch_of_none (hagain _)] at hlength
  have htwo : 2 ≤ 1 := hlength
  omega

/-- **Forwarding.**  Whatever calls fail, the object runs the table handler of a write at most once,
exactly when nothing makes the Worker send the write again. -/
theorem atMostOnce_iff (w : ForwardedWrite) (o : Instance) : w.AtMostOnce o ↔ w.Quiet o :=
  ⟨fun h => ⟨fun hcreates => not_atMostOnce_of_creates hcreates h,
    fun hanswers => not_atMostOnce_of_answers hanswers h⟩, atMostOnce_of_quiet⟩

/-! ### A column that looks like a question -/

/-- The insert of a note with a column `needsCreate` into a single-instance block. -/
def noteWrite : ForwardedWrite where
  config := { databases := some [("app", { provider := some .do, tables := some [("notes", {})] })] }
  ns := "app"
  instanceId := none
  block := { provider := some .do, tables := some [("notes", {})] }
  doName := "app"
  env := .simple
  caller := { auth := none }
  req := .create "notes" [("needsCreate", .bool true)] none
  resolved := ⟨false, rfl⟩
  backend := rfl
  isWrite := rfl

/-- A dynamic block that anyone may create. -/
def openBlockOf : DbBlock where
  provider := some .do
  instance_ := true
  access := some { canCreate := some fun _ _ => .value true }
  tables := some [("notes", {})]

/-- The first insert into a database of that block. -/
def firstWrite : ForwardedWrite where
  config := { databases := some [("workspace", openBlockOf)] }
  ns := "workspace"
  instanceId := some "w1"
  block := openBlockOf
  doName := "workspace:w1"
  env := .simple
  caller := { auth := none }
  req := .create "notes" [] none
  resolved := ⟨true, rfl⟩
  backend := rfl
  isWrite := rfl

/-- The note is stored twice although no call fails; and a new object inserts twice when the
authorized call is cut. -/
theorem forwarding_counterexample :
    ((noteWrite.route ⟨{}, []⟩).state.peer.store.rows "notes").length = 2 ∧
      ¬noteWrite.AtMostOnce {} ∧
      ((firstWrite.route ⟨{}, [.answered, .cut true]⟩).state.peer.store.rows "notes").length = 2 ∧
      ¬firstWrite.AtMostOnce {} := by
  have hshake : noteWrite.object.handshake false {} = none := by decide
  exact ⟨rfl, not_atMostOnce_of_answers ⟨hshake, "notes", _, none, _, rfl, rfl, by decide, rfl⟩,
    rfl, not_atMostOnce_of_creates ⟨rfl, rfl⟩⟩

end ForwardedWrite

end EdgeBase
