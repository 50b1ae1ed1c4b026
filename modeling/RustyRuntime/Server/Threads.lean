import RustyRuntime.Server.Tenant
import RustyRuntime.Server.Task
import RustyRuntime.Library.Run

/-!
# Threads and their tenants

The thread routes of `routes.rs`: a thread is created under the internal id of its tenant, and
a request looks up the internal id of its own tenant. The id of a request comes from the path,
where an encoded slash is decoded, and is not validated.

Main results:

* **When a request stays with its tenant** (`thread_isolated_iff`): always for a named tenant;
  for the default tenant, whose internal ids are the ids themselves, unless the id spells a
  thread of a named tenant.
* A request of the default tenant reads a thread of another one (`default_reads_acme`).
-/

namespace RustyRuntime

open Library

structure ThreadRecord where
  threadId : String
  tenant : String
  graph : String
  metadata : Json
  forkedFrom : Option String
  seedLength : Option Nat
  createdAt : Instant
  deriving DecidableEq

/-- The thread index: internal id to record. -/
abbrev Threads := Std.ExtTreeMap String ThreadRecord

/-! ## Reading -/

section

variable (legacy : String → Option String) (threads : Threads) (ctx : TenantContext)

def runPerson (metadata : Json) : Option String :=
  (([(metadata.get "execution").bind (·.get "subject"), metadata.get "on_behalf_of",
      metadata.get "created_by"].filterMap id).find? fun who =>
        (who.get "kind").bind Json.asStr = some "user").bind fun who =>
          (who.get "principal_id").bind Json.asStr

def runReadable (metadata : Json) : Bool :=
  (runPerson metadata).all ctx.mayReadFor

/-- `thread_readable`; `legacy` is the person of a thread from before the stamp. -/
def threadReadable (threadId : String) (thread : ThreadRecord) : Bool :=
  if (thread.metadata.get "created_by").isSome then runReadable ctx thread.metadata
  else (legacy threadId).all ctx.mayReadFor

def requireThread (threadId : String) : Except ApiError ThreadRecord :=
  match threads[ctx.scope threadId]?.filter (threadReadable legacy ctx threadId) with
  | some thread => .ok thread
  | none => .error (.notFound s!"thread `{threadId}` not found")

/-! ## Creating -/

structure CreateThreadPayload where
  graph : String
  metadata : Option Json := none
  threadId : Option String := none

/-- `attributed`: the metadata of the client with the server's stamp. -/
def attributed (metadata : Option Json) (ctx : TenantContext) : Json :=
  match metadata with
  | some (.obj fields) => .obj (Json.insertField "created_by" ctx.attribution fields)
  | _ => .obj (Json.insertField "created_by" ctx.attribution [])

/-- `create_thread` of the store: check and insert. -/
def Threads.create (internalId : String) (record : ThreadRecord) : Option Threads :=
  if threads.contains internalId then none else some (threads.insert internalId record)

/-- `create_thread` as the routes use it: a taken id is a conflict. -/
def Threads.file (record : ThreadRecord) : Except ApiError (ThreadRecord × Threads) :=
  match threads.create (ctx.scope record.threadId) record with
  | none => .error (.conflict s!"thread `{record.threadId}` already exists")
  | some threads => .ok (record, threads)

end

/-- `create_thread`; `uuid` is the id that is generated when the client chose none. -/
def createThread (graphs : List String) (threads : Threads) (ctx : TenantContext)
    (payload : CreateThreadPayload) (uuid : String) (now : Instant) :
    Except ApiError (ThreadRecord × Threads) := do
  if !graphs.contains payload.graph then
    throw (.badRequest
      s!"unknown graph `{payload.graph}` (see GET /info for registered graphs)")
  let threadId := payload.threadId.getD uuid
  validateClientId "thread_id" threadId
  threads.file ctx
    { threadId, tenant := ctx.tenant, graph := payload.graph
      metadata := attributed payload.metadata ctx, forkedFrom := none, seedLength := none
      createdAt := now }

structure ForkThreadPayload where
  newThreadId : Option String := none
  checkpointId : Option String := none

/-- The checkpointer's `fork_thread` as the route sees it: the source, the destination and the
checkpoint to the number of copied checkpoints or the text of the error. -/
abbrev CopyHistory := String → String → Option String → Except String Nat

def forkThread (copy : CopyHistory) (legacy : String → Option String) (threads : Threads)
    (ctx : TenantContext) (threadId : String) (payload : ForkThreadPayload) (uuid : String)
    (now : Instant) : Except ApiError (ThreadRecord × Threads) := do
  let record ← requireThread legacy threads ctx threadId
  let newThreadId := payload.newThreadId.getD uuid
  validateClientId "new_thread_id" newThreadId
  if threads.contains (ctx.scope newThreadId) then
    throw (.conflict s!"thread `{newThreadId}` already exists")
  let copied ← (copy (ctx.scope threadId) (ctx.scope newThreadId) payload.checkpointId).mapError
    fun message =>
      if containsText message "unknown checkpoint id" then .notFound message else .badRequest message
  threads.file ctx
    { threadId := newThreadId, tenant := ctx.tenant, graph := record.graph, metadata := .obj []
      forkedFrom := some threadId, seedLength := some copied, createdAt := now }

/-! ## Histories -/

inductive ThreadRequest where
  | create (payload : CreateThreadPayload)
  | fork (threadId : String) (payload : ForkThreadPayload)

/-- A request with its caller and the id and the time the server draws for it. -/
structure ThreadCall where
  ctx : TenantContext
  request : ThreadRequest
  uuid : String
  now : Instant

/-- What the thread routes run on: the registered graphs, the checkpointer and the persons of
threads from before the stamp. -/
structure ThreadServer where
  graphs : List String
  copy : CopyHistory
  legacy : String → Option String

namespace ThreadServer

variable (server : ThreadServer)

def handle (threads : Threads) (call : ThreadCall) : Except ApiError (ThreadRecord × Threads) :=
  match call.request with
  | .create payload => createThread server.graphs threads call.ctx payload call.uuid call.now
  | .fork threadId payload =>
    forkThread server.copy server.legacy threads call.ctx threadId payload call.uuid call.now

/-- The index after a request; a refused one leaves it. -/
def next (threads : Threads) (call : ThreadCall) : Threads :=
  match server.handle threads call with
  | .ok (_, threads) => threads
  | .error _ => threads

end ThreadServer

def Filed (threads : Threads) : Prop :=
  ∀ (internalId : String) (record : ThreadRecord), threads[internalId]? = some record →
    internalId = scopeId record.tenant record.threadId ∧ validTenant record.tenant = true ∧
      validateClientId "thread_id" record.threadId = .ok ()

variable {threads threads' : Threads} {server : ThreadServer} {call : ThreadCall}
  {id tenant : String}

theorem file_eq_ok {ctx : TenantContext} {record record' : ThreadRecord}
    (h : threads.file ctx record = .ok (record', threads')) :
    record' = record ∧ threads' = threads.insert (ctx.scope record.threadId) record := by
  unfold Threads.file Threads.create at h
  by_cases hTaken : threads.contains (ctx.scope record.threadId)
  · simp [hTaken] at h
  · simp only [hTaken] at h
    cases h
    exact ⟨rfl, rfl⟩

theorem handle_eq_ok {record : ThreadRecord}
    (h : server.handle threads call = .ok (record, threads')) :
    record.tenant = call.ctx.tenant ∧ validateClientId "thread_id" record.threadId = .ok () ∧
      threads' = threads.insert (scopeId record.tenant record.threadId) record := by
  cases hRequest : call.request with
  | create payload =>
    simp only [ThreadServer.handle, hRequest, createThread, bind, Except.bind, throw, throwThe,
      MonadExceptOf.throw] at h
    split at h
    · cases h
    · cases hValid : validateClientId "thread_id" (payload.threadId.getD call.uuid) with
      | error e => simp [hValid] at h
      | ok _ =>
        simp only [hValid] at h
        obtain ⟨rfl, rfl⟩ := file_eq_ok h
        exact ⟨rfl, hValid, rfl⟩
  | fork threadId payload =>
    simp only [ThreadServer.handle, hRequest, forkThread, bind, Except.bind, throw, throwThe,
      MonadExceptOf.throw] at h
    split at h
    · cases h
    · cases hValid : validateClientId "new_thread_id" (payload.newThreadId.getD call.uuid) with
      | error e => simp [hValid] at h
      | ok _ =>
        simp only [hValid] at h
        split at h
        · cases h
        · split at h
          · cases h
          · obtain ⟨rfl, rfl⟩ := file_eq_ok h
            exact ⟨rfl, validateClientId_kind hValid, rfl⟩

theorem filed_next (hFiled : Filed threads) (hTenant : validTenant call.ctx.tenant) :
    Filed (server.next threads call) := by
  unfold ThreadServer.next
  split
  · rename_i record threads' hOk
    obtain ⟨hSame, hValid, rfl⟩ := handle_eq_ok hOk
    intro internalId found hFound
    rw [Std.ExtTreeMap.getElem?_insert] at hFound
    split at hFound
    · rename_i hId
      cases hFound
      refine ⟨(Std.LawfulEqCmp.eq_of_compare hId).symm, ?_, hValid⟩
      rw [hSame]
      exact hTenant
    · exact hFiled internalId found hFound
  · exact hFiled

theorem filed_run {history : List ThreadCall}
    (hHistory : ∀ call ∈ history, validTenant call.ctx.tenant) :
    Filed (run server.next ∅ history) := by
  have hStep : ∀ (threads : Threads) (call : ThreadCall), Filed threads →
      validTenant call.ctx.tenant → Filed (server.next threads call) :=
    fun _ _ hFiled hTenant => filed_next hFiled hTenant
  apply run_invariant hStep
  · intro internalId record hFound
    simp at hFound
  · exact admissible_of_forall (fun call hCall _ => hHistory call hCall) ∅

/-! ## Isolation -/

/-- The internal id that a request looks up is none under which another tenant's thread can
have been created. -/
def SharesNoId (tenant id : String) : Prop :=
  ∀ other thread, validTenant other = true → other ≠ tenant →
    validateClientId "thread_id" thread = .ok () → scopeId tenant id ≠ scopeId other thread

/-- After any history of creations and forks, what a request gets is a thread of its own tenant. -/
def ReachesOwnOnly (tenant id : String) : Prop :=
  ∀ (server : ThreadServer) (history : List ThreadCall) (ctx : TenantContext) record,
    ctx.tenant = tenant → (∀ call ∈ history, validTenant call.ctx.tenant = true) →
    requireThread server.legacy (run server.next ∅ history) ctx id = .ok record →
      record.tenant = tenant

/-- The id does not read as a named tenant, a slash and an id that tenant could have used. -/
def spellsNoThread (id : String) : Bool :=
  (splitOnce '/' id).all fun parts =>
    !(validTenant parts.1 && parts.1 ≠ defaultTenant &&
      (validateClientId "thread_id" parts.2).isOk)

theorem spellsNoThread_scopeId {other thread : String} (hOther : validTenant other)
    (hNamed : other ≠ defaultTenant) (hThread : validateClientId "thread_id" thread = .ok ()) :
    spellsNoThread (scopeId other thread) = false := by
  simp [spellsNoThread, splitOnce_scopeId hOther hNamed, hOther, hNamed, hThread, Except.isOk,
    Except.toBool]

theorem exists_of_not_spellsNoThread (h : spellsNoThread id = false) :
    ∃ other thread, validTenant other ∧ other ≠ defaultTenant ∧
      validateClientId "thread_id" thread = .ok () ∧ id = scopeId other thread := by
  unfold spellsNoThread at h
  cases hSplit : splitOnce '/' id with
  | none => simp [hSplit] at h
  | some parts =>
    obtain ⟨other, thread⟩ := parts
    rw [hSplit, Option.all_some, Bool.not_eq_false', Bool.and_eq_true, Bool.and_eq_true,
      decide_eq_true_eq] at h
    obtain ⟨⟨hOther, hNamed⟩, hThread⟩ := h
    refine ⟨other, thread, hOther, hNamed, ?_, ?_⟩
    · cases hValid : validateClientId "thread_id" thread with
      | ok _ => rfl
      | error e => simp [hValid, Except.isOk, Except.toBool] at hThread
    · rw [← String.toList_inj, toList_scopeId hNamed]
      exact (splitOnce_eq_some_iff.mp hSplit).1

theorem sharesNoId_iff (hTenant : validTenant tenant) (id : String) :
    SharesNoId tenant id ↔ tenant ≠ defaultTenant ∨ spellsNoThread id := by
  constructor
  · intro hShares
    by_contra hNot
    obtain ⟨hDefault, hSpells⟩ := not_or.mp hNot
    rw [not_not] at hDefault
    subst hDefault
    obtain ⟨other, thread, hOther, hNamed, hThread, rfl⟩ :=
      exists_of_not_spellsNoThread (Bool.eq_false_iff.mpr hSpells)
    apply hShares other thread hOther hNamed hThread
    exact scopeId_default _
  · intro hCond other thread hOther hNe hThread hSame
    by_cases hNamed : tenant = defaultTenant
    · -- the default tenant looks up the id itself
      subst hNamed
      rw [scopeId_default] at hSame
      rcases hCond with hFalse | hSpells
      · exact hFalse rfl
      · rw [hSame, spellsNoThread_scopeId hOther hNe hThread] at hSpells
        cases hSpells
    · by_cases hOtherNamed : other = defaultTenant
      · subst hOtherNamed
        exact scopeId_ne_of_default hNamed hThread id hSame
      · exact scopeId_ne_of_named hTenant hOther hNamed hOtherNamed hNe id thread hSame

theorem reachesOwnOnly_of_sharesNoId (h : SharesNoId tenant id) : ReachesOwnOnly tenant id := by
  intro server history ctx record hCtx hHistory hOk
  have hFiled : Filed (run server.next ∅ history) := filed_run hHistory
  unfold requireThread at hOk
  split at hOk
  · rename_i thread hThread
    cases hOk
    obtain ⟨hFound, -⟩ := Option.filter_eq_some_iff.mp hThread
    obtain ⟨hId, hValid, hAccepted⟩ := hFiled _ _ hFound
    by_contra hNe
    apply h record.tenant record.threadId hValid hNe hAccepted
    rw [← hId, TenantContext.scope, hCtx]
  · cases hOk

/-- **When a request stays with its tenant.** -/
theorem thread_isolated_iff {tenant : String} (hTenant : validTenant tenant = true) (id : String) :
    SharesNoId tenant id ∧ ReachesOwnOnly tenant id ↔
      tenant ≠ defaultTenant ∨ spellsNoThread id = true := by
  rw [← sharesNoId_iff hTenant id]
  exact ⟨And.left, fun hShares => ⟨hShares, reachesOwnOnly_of_sharesNoId hShares⟩⟩

theorem thread_isolated_acme : validTenant "acme" = true ∧ SharesNoId "acme" "default/t1" ∧
    ReachesOwnOnly "acme" "default/t1" :=
  ⟨by decide, (thread_isolated_iff (by decide) "default/t1").mpr (.inl (by decide))⟩

def acmeOwner : TenantContext := ⟨"acme", ⟨"svc-acme", "Acme", .service, []⟩⟩

def defaultCaller : TenantContext := ⟨defaultTenant, ⟨"dana", "Dana", .user, [.operator]⟩⟩

def chatServer : ThreadServer := ⟨["chat"], fun _ _ _ => .error "no checkpoints", fun _ => none⟩

/-- The tenant `acme` creates its thread `t1`. -/
def acmeCreates : List ThreadCall :=
  [⟨acmeOwner, .create { graph := "chat", threadId := some "t1" }, "", 0⟩]

/-- `GET /threads/acme%2Ft1` of a caller in the default tenant returns the thread `t1` that
the tenant `acme` created. -/
theorem default_reads_acme :
    (∀ call ∈ acmeCreates, validTenant call.ctx.tenant = true) ∧
      (∃ record, requireThread chatServer.legacy (run chatServer.next ∅ acmeCreates) defaultCaller
        "acme/t1" = .ok record ∧ record.tenant = "acme" ∧ record.threadId = "t1") ∧
      ¬ (SharesNoId defaultCaller.tenant "acme/t1" ∧
        ReachesOwnOnly defaultCaller.tenant "acme/t1") := by
  have hCalls : ∀ call ∈ acmeCreates, validTenant call.ctx.tenant = true := by decide
  have hRead : requireThread chatServer.legacy (run chatServer.next ∅ acmeCreates) defaultCaller
      "acme/t1" = .ok ⟨"t1", "acme", "chat", attributed none acmeOwner, none, none, 0⟩ := by
    decide
  refine ⟨hCalls, ⟨_, hRead, rfl, rfl⟩, ?_⟩
  rintro ⟨-, hReaches⟩
  have hTenant := hReaches chatServer acmeCreates defaultCaller _ rfl hCalls hRead
  exact absurd hTenant (by decide)

end RustyRuntime
