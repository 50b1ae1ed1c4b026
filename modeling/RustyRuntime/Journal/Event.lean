import RustyRuntime.Record

/-!
# Journal events

`RunEvent` of `record.rs` and the value its derived `Serialize` writes: every field in
declaration order, absent options as `null`, enumerations by their snake-case names.
`eventJson_injective` says that nothing of an event is lost on the way, so a hash over the
written bytes covers every field.

Costs are finite `f64` values. The text of a timestamp is the codec's.
-/

namespace RustyRuntime

/-! ## Enumerations -/

/-- What a `RunEvent` records. -/
inductive RunEventKind where
  | superStepStart
  | superStepEnd
  | nodeInput
  | nodeOutput
  | modelCall
  | toolCall
  | remoteCall
  | wasmCall
  | interrupt
  | resume
  | routingDecision
  | checkpointWritten
  | effectReceipt
  | agentSpawn
  | agentExit
  | mailboxSend
  | mailboxReceive
  | supervisionEvent
  | coordinationStart
  | coordinationEnd
  | memoryRead
  | memoryWrite
  | memoryForget
  | candidateCreated
  | candidateEvaluated
  | candidatePromoted
  | candidateRolledBack
  | policyDecision
  | capsuleResolved
  | capsuleCall
  | capsuleDenied
  | signingKeyRotated
  | configResolved
  | connectionRegistered
  | connectionConsented
  | connectionRefreshed
  | connectionRevoked
  | credentialHandleIssued
  | credentialUse
  | credentialDenied
  | connectionNeedsReauth
  | artifactCommitted
  | artifactPruned
  | artifactRetentionReleased
  | artifactUnavailable
  | deploymentResolved
  | revisionRegistered
  | revisionPromoted
  | revisionRolledBack
  | environmentDeclared
  | envSecretSet
  | envSecretRevoked
  | envSecretDenied
  | gateDecisionRecorded
  | canaryDeclared
  | canaryCleared
  | shadowRunStarted
  | shadowEffectRefused
  | shadowVerdict
  | runConfigDeclared
  | toolCallDenied
  | approvalAsked
  | approvalDecided
  | inboxIntake
  | inboxConsumed
  | requestHeader
  | runCancelled
  | assistantChunk
  deriving DecidableEq, Repr

/-- The declared effect classification of what produced an event. -/
inductive Effect where
  | pure
  | readOnly
  | idempotent
  | compensatable
  | nonIdempotent
  deriving DecidableEq, Repr

inductive EventStatus where
  | ok
  | error
  | interrupted
  deriving DecidableEq, Repr

def RunEventKind.name : RunEventKind → String
  | .superStepStart => "super_step_start"
  | .superStepEnd => "super_step_end"
  | .nodeInput => "node_input"
  | .nodeOutput => "node_output"
  | .modelCall => "model_call"
  | .toolCall => "tool_call"
  | .remoteCall => "remote_call"
  | .wasmCall => "wasm_call"
  | .interrupt => "interrupt"
  | .resume => "resume"
  | .routingDecision => "routing_decision"
  | .checkpointWritten => "checkpoint_written"
  | .effectReceipt => "effect_receipt"
  | .agentSpawn => "agent_spawn"
  | .agentExit => "agent_exit"
  | .mailboxSend => "mailbox_send"
  | .mailboxReceive => "mailbox_receive"
  | .supervisionEvent => "supervision_event"
  | .coordinationStart => "coordination_start"
  | .coordinationEnd => "coordination_end"
  | .memoryRead => "memory_read"
  | .memoryWrite => "memory_write"
  | .memoryForget => "memory_forget"
  | .candidateCreated => "candidate_created"
  | .candidateEvaluated => "candidate_evaluated"
  | .candidatePromoted => "candidate_promoted"
  | .candidateRolledBack => "candidate_rolled_back"
  | .policyDecision => "policy_decision"
  | .capsuleResolved => "capsule_resolved"
  | .capsuleCall => "capsule_call"
  | .capsuleDenied => "capsule_denied"
  | .signingKeyRotated => "signing_key_rotated"
  | .configResolved => "config_resolved"
  | .connectionRegistered => "connection_registered"
  | .connectionConsented => "connection_consented"
  | .connectionRefreshed => "connection_refreshed"
  | .connectionRevoked => "connection_revoked"
  | .credentialHandleIssued => "credential_handle_issued"
  | .credentialUse => "credential_use"
  | .credentialDenied => "credential_denied"
  | .connectionNeedsReauth => "connection_needs_reauth"
  | .artifactCommitted => "artifact_committed"
  | .artifactPruned => "artifact_pruned"
  | .artifactRetentionReleased => "artifact_retention_released"
  | .artifactUnavailable => "artifact_unavailable"
  | .deploymentResolved => "deployment_resolved"
  | .revisionRegistered => "revision_registered"
  | .revisionPromoted => "revision_promoted"
  | .revisionRolledBack => "revision_rolled_back"
  | .environmentDeclared => "environment_declared"
  | .envSecretSet => "env_secret_set"
  | .envSecretRevoked => "env_secret_revoked"
  | .envSecretDenied => "env_secret_denied"
  | .gateDecisionRecorded => "gate_decision_recorded"
  | .canaryDeclared => "canary_declared"
  | .canaryCleared => "canary_cleared"
  | .shadowRunStarted => "shadow_run_started"
  | .shadowEffectRefused => "shadow_effect_refused"
  | .shadowVerdict => "shadow_verdict"
  | .runConfigDeclared => "run_config_declared"
  | .toolCallDenied => "tool_call_denied"
  | .approvalAsked => "approval_asked"
  | .approvalDecided => "approval_decided"
  | .inboxIntake => "inbox_intake"
  | .inboxConsumed => "inbox_consumed"
  | .requestHeader => "request_header"
  | .runCancelled => "run_cancelled"
  | .assistantChunk => "assistant_chunk"

def Effect.name : Effect → String
  | .pure => "pure"
  | .readOnly => "read_only"
  | .idempotent => "idempotent"
  | .compensatable => "compensatable"
  | .nonIdempotent => "non_idempotent"

def EventStatus.name : EventStatus → String
  | .ok => "ok"
  | .error => "error"
  | .interrupted => "interrupted"


/-- A name as a number, base 256. -/
def nameCode (name : String) : Nat := (Json.utf8 name).foldl (fun n byte => n * 256 + byte.toNat) 0

theorem nodup_nameCodes :
    ((List.range 68).map fun i => nameCode (RunEventKind.ofNat i).name).Nodup := by
  decide

theorem RunEventKind.exists_ofNat (kind : RunEventKind) : ∃ i ∈ List.range 68, ofNat i = kind :=
  ⟨kind.ctorIdx, List.mem_range.mpr (by cases kind <;> decide), ofNat_ctorIdx kind⟩

theorem RunEventKind.name_injective : Function.Injective RunEventKind.name := by
  intro a b h
  obtain ⟨i, hI, rfl⟩ := a.exists_ofNat
  obtain ⟨j, hJ, rfl⟩ := b.exists_ofNat
  rw [List.inj_on_of_nodup_map nodup_nameCodes hI hJ (congrArg nameCode h)]

theorem Effect.name_injective : Function.Injective Effect.name := by
  intro a b h
  cases a <;> cases b <;> first | rfl | exact absurd h (by decide)

theorem EventStatus.name_injective : Function.Injective EventStatus.name := by
  intro a b h
  cases a <;> cases b <;> first | rfl | exact absurd h (by decide)

/-! ## Payloads and events -/

structure Usage where
  promptTokens : UInt64
  completionTokens : UInt64
  totalTokens : UInt64
  cachedTokens : Option UInt64 := none
  reasoningTokens : Option UInt64 := none
  deriving DecidableEq

/-- A content-addressed reference to a payload. -/
structure ArtifactRef where
  sha256 : String
  bytes : UInt64
  deriving DecidableEq

/-- How an event's payload is carried. -/
inductive PayloadRef where
  | inline (value : Json)
  | artifact (reference : ArtifactRef)
  deriving DecidableEq

structure RunEvent where
  id : String
  runId : String
  threadId : String
  nodeId : Option String
  seq : UInt64
  kind : RunEventKind
  effect : Effect
  input : Option PayloadRef
  output : Option PayloadRef
  latencyMs : Option UInt64
  tokens : Option Usage
  costUsd : Option Rat
  status : EventStatus
  parent : Option String
  recordedAt : Int
  deriving DecidableEq

/-! ## The serialized form -/

def optionJson {α : Type} (f : α → Json) : Option α → Json
  | none => .null
  | some a => f a

def u64Json (n : UInt64) : Json := .num (.posInt n)

/-- `Usage`: the two detail counts are absent when unset. -/
def usageJson (u : Usage) : Json :=
  .obj ([("prompt_tokens", u64Json u.promptTokens),
      ("completion_tokens", u64Json u.completionTokens),
      ("total_tokens", u64Json u.totalTokens)] ++
    (u.cachedTokens.map fun n => ("cached_tokens", u64Json n)).toList ++
    (u.reasoningTokens.map fun n => ("reasoning_tokens", u64Json n)).toList)

def artifactRefJson (r : ArtifactRef) : Json :=
  .obj [("sha256", .str r.sha256), ("bytes", u64Json r.bytes)]

/-- `PayloadRef`, adjacently tagged. -/
def payloadJson : PayloadRef → Json
  | .inline value => .obj [("kind", .str "inline"), ("value", value)]
  | .artifact reference => .obj [("kind", .str "artifact"), ("value", artifactRefJson reference)]

def eventJson (codec : Codec) (e : RunEvent) : Json :=
  .obj [("id", .str e.id), ("run_id", .str e.runId), ("thread_id", .str e.threadId),
    ("node_id", optionJson .str e.nodeId), ("seq", u64Json e.seq), ("kind", .str e.kind.name),
    ("effect", .str e.effect.name), ("input", optionJson payloadJson e.input),
    ("output", optionJson payloadJson e.output), ("latency_ms", optionJson u64Json e.latencyMs),
    ("tokens", optionJson usageJson e.tokens),
    ("cost_usd", optionJson (fun q => .num (.float q)) e.costUsd),
    ("status", .str e.status.name), ("parent", optionJson .str e.parent),
    ("recorded_at", .str (codec.timestamp e.recordedAt))]

theorem optionJson_injective {α : Type} {f : α → Json} (hF : Function.Injective f)
    (hNull : ∀ a, f a ≠ .null) : Function.Injective (optionJson f) := by
  intro a b h
  cases a with
  | none =>
    cases b with
    | none => rfl
    | some y => exact absurd h.symm (hNull y)
  | some x =>
    cases b with
    | none => exact absurd h (hNull x)
    | some y => exact congrArg some (hF h)

theorem u64Json_injective : Function.Injective u64Json := by
  intro a b h
  simpa [u64Json] using h

theorem str_injective : Function.Injective Json.str := by
  intro a b h
  simpa using h

theorem usageJson_injective : Function.Injective usageJson := by
  rintro ⟨p, c, t, cached, reasoning⟩ ⟨p', c', t', cached', reasoning'⟩ h
  cases cached <;> cases reasoning <;> cases cached' <;> cases reasoning' <;>
    simp_all [usageJson, u64Json]

theorem payloadJson_injective : Function.Injective payloadJson := by
  intro a b h
  cases a with
  | inline v =>
    cases b with
    | inline w => simpa [payloadJson] using h
    | artifact r => simp [payloadJson] at h
  | artifact r =>
    cases b with
    | inline w => simp [payloadJson] at h
    | artifact r' =>
      obtain ⟨sha, bytes⟩ := r
      obtain ⟨sha', bytes'⟩ := r'
      simpa [payloadJson, artifactRefJson, u64Json] using h

/-- **The serialized form keeps every field** of two events whose timestamps the codec
tells apart. -/
theorem eventJson_injective {codec : Codec} {e e' : RunEvent}
    (hTime : codec.timestamp e.recordedAt = codec.timestamp e'.recordedAt →
      e.recordedAt = e'.recordedAt)
    (h : eventJson codec e = eventJson codec e') : e = e' := by
  have hStrings : Function.Injective (optionJson Json.str) :=
    optionJson_injective str_injective (by simp)
  have hNumbers : Function.Injective (optionJson u64Json) :=
    optionJson_injective u64Json_injective (by simp [u64Json])
  have hPayloads : Function.Injective (optionJson payloadJson) := by
    refine optionJson_injective payloadJson_injective fun p hp => ?_
    cases p <;> cases hp
  have hUsages : Function.Injective (optionJson usageJson) :=
    optionJson_injective usageJson_injective (by simp [usageJson])
  have hCosts : Function.Injective (optionJson fun q : Rat => .num (.float q)) := by
    refine optionJson_injective (fun a b hab => ?_) (by simp)
    simpa using hab
  simp only [eventJson, Json.obj.injEq, List.cons.injEq, Prod.mk.injEq, Json.str.injEq, true_and,
    and_true] at h
  obtain ⟨hId, hRun, hThread, hNode, hSeq, hKind, hEffect, hInput, hOutput, hLatency, hTokens,
    hCost, hStatus, hParent, hAt⟩ := h
  cases e
  cases e'
  simp only [RunEvent.mk.injEq]
  exact ⟨hId, hRun, hThread, hStrings hNode, u64Json_injective hSeq,
    RunEventKind.name_injective hKind, Effect.name_injective hEffect, hPayloads hInput,
    hPayloads hOutput, hNumbers hLatency, hUsages hTokens, hCosts hCost,
    EventStatus.name_injective hStatus, hStrings hParent, hTime hAt⟩

end RustyRuntime
