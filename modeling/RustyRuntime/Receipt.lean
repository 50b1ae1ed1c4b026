import RustyRuntime.Journal.Integrity

/-!
# Signed run receipts

`receipt.rs`: a receipt signs the head of a journal together with what is derived from its
events, and verification derives all of it again from the snapshot it is given. What is
derived goes through the artifact map of the snapshot only for effect receipts and capsule
resolutions, and the head covers addresses, not the values under them. So a receipt commits to
the events (`sameEvents_of_verified`), and to the payloads exactly when the snapshot also
passes the check of the replay path (`receipt_commits_iff`).

Ed25519 is a parameter with its correctness law, and so are the derived decoders of the two
payload types. The run manifest is the JSON it serializes to.
-/

namespace RustyRuntime

/-! ## Keys and hex -/

structure Ed25519 where
  verifyingKey : Bytes → Bytes
  sign : Bytes → Bytes → Bytes
  verifyStrict : Bytes → Bytes → Bytes → Bool
  length_sign : ∀ key message, (sign key message).length = 64
  verify_sign : ∀ key message, verifyStrict (verifyingKey key) message (sign key message) = true

section

variable (codec : Codec) (decoders : LedgerDecoders) (s : JournalSnapshot)

/-- A digit of `from_str_radix` in base 16. -/
def hexValue (c : Char) : Option Nat :=
  if c.isDigit then some (c.toNat - 48)
  else if 'a' ≤ c ∧ c ≤ 'f' then some (c.toNat - 87)
  else if 'A' ≤ c ∧ c ≤ 'F' then some (c.toNat - 55)
  else none

/-- `u8::from_str_radix` on two characters; it also takes a plus sign. -/
def hexPair (a b : Char) : Option UInt8 :=
  if a = '+' then (hexValue b).map UInt8.ofNat
  else (hexValue a).bind fun high => (hexValue b).map fun low => UInt8.ofNat (high * 16 + low)

def hexDecodeChars : List Char → Option Bytes
  | [] => some []
  | [_] => none
  | a :: b :: rest => (hexPair a b).bind fun byte => (hexDecodeChars rest).map (byte :: ·)

/-- `hex_decode`. A character outside ASCII makes its pair fail, so the text is read by
characters. -/
def hexDecode (hex : String) : Option Bytes := hexDecodeChars hex.toList

theorem hexPair_hexDigit : ∀ m n : Fin 16,
    hexPair (Json.hexDigit m) (Json.hexDigit n) = some (UInt8.ofNat (m * 16 + n)) := by
  decide

theorem hexDecode_hexText (bytes : Bytes) : hexDecode (hexText bytes) = some bytes := by
  rw [hexDecode, hexText, String.toList_ofList]
  induction bytes with
  | nil => rfl
  | cons b rest ih =>
    have hBound : b.toNat < 256 := b.toNat_lt
    have hPair := hexPair_hexDigit ⟨b.toNat / 16, by omega⟩ ⟨b.toNat % 16, by omega⟩
    have hByte : b.toNat / 16 * 16 + b.toNat % 16 = b.toNat := by omega
    simp only [hByte, UInt8.ofNat_toNat] at hPair
    rw [List.flatMap_cons, List.cons_append, List.cons_append, List.nil_append, hexDecodeChars,
      hPair, ih]
    rfl

/-! ## What is derived from a snapshot -/

structure EffectReceipt where
  provider : String
  providerId : String
  idempotencyKey : String
  taskId : Option String
  effectId : Option String
  deriving DecidableEq

/-- `CapsuleResolution`, as far as receipts read it. -/
structure CapsuleResolution where
  name : String
  capsuleId : String
  policyVersion : Option String
  deriving DecidableEq

/-- `from_value` at the two payload types. -/
structure LedgerDecoders where
  effectReceipt : Json → Option EffectReceipt
  capsuleResolution : Json → Option CapsuleResolution

abbrev Capsules := Std.ExtTreeMap String String

structure ReceiptComponents where
  capsules : Capsules := ∅
  effects : List String := []
  capsulePolicies : List String := []
  denials : List String := []

def JournalSnapshot.resolve : PayloadRef → Option Json
  | .inline value => some value
  | .artifact reference => s.artifacts[reference.sha256]?

def resolveOutput (e : RunEvent) : Option Json := e.output.bind s.resolve

def effectLedgerDigest (receipt : EffectReceipt) : String :=
  codec.sha256Hex (codec.toVec (.obj ([("provider", .str receipt.provider),
      ("provider_id", .str receipt.providerId),
      ("idempotency_key", .str receipt.idempotencyKey)] ++
    (receipt.effectId.map fun id => ("effect_id", .str id)).toList)))

/-- One event of the walk in `derive_components`. -/
def deriveOne (acc : ReceiptComponents) (e : RunEvent) : ReceiptComponents :=
  match e.kind with
  | .effectReceipt =>
    match (resolveOutput s e).bind decoders.effectReceipt with
    | none => acc
    | some receipt => { acc with effects := acc.effects ++ [effectLedgerDigest codec receipt] }
  | .capsuleResolved =>
    match (resolveOutput s e).bind decoders.capsuleResolution with
    | none => acc
    | some resolution =>
      { acc with
        capsules := acc.capsules.insert resolution.name resolution.capsuleId
        capsulePolicies := match resolution.policyVersion with
          | some version =>
            if acc.capsulePolicies.contains version then acc.capsulePolicies
            else acc.capsulePolicies ++ [version]
          | none => acc.capsulePolicies }
  | .capsuleDenied => { acc with denials := acc.denials ++ [e.id] }
  | _ => acc

def deriveComponents : ReceiptComponents :=
  s.events.foldl (deriveOne codec decoders s) {}

end

/-! ## The receipt -/

/-- `RECEIPT_FORMAT_VERSION`. -/
def receiptFormatVersion : Nat := 1

structure RunReceipt where
  formatVersion : Nat
  runId : String
  journalHead : JournalRef
  manifestDigest : Option String
  manifest : Option Json
  capsules : Capsules
  effects : List String
  executorPolicy : Option PolicyVersion
  capsulePolicies : List String
  denials : List String
  signer : String
  signature : String

section Statement

variable (codec : Codec) (decoders : LedgerDecoders) (ed : Ed25519) (s : JournalSnapshot)
  (r : RunReceipt) (publicKey : Bytes) (manifest : Option Json)
  (executorPolicy : Option PolicyVersion) (signingKey : Bytes)

def journalRefJson (head : JournalRef) : Json :=
  .object [("events", u64Json (UInt64.ofNat head.events)), ("sha256", .str head.sha256)]

def listField (name : String) (items : List Json) : List (String × Json) :=
  if items.isEmpty then [] else [(name, .arr items)]

/-- The statement as `to_value` gives it: every field but the signature. -/
def RunReceipt.statement : Json :=
  .object ([("format_version", u64Json (UInt64.ofNat r.formatVersion)), ("run_id", .str r.runId),
      ("journal_head", journalRefJson r.journalHead)] ++
    (r.manifestDigest.map fun digest => ("manifest_digest", .str digest)).toList ++
    (r.manifest.map fun manifest => ("manifest", manifest)).toList ++
    (if r.capsules.isEmpty then []
      else [("capsules", .object (r.capsules.toList.map fun pin => (pin.1, .str pin.2)))]) ++
    listField "effects" (r.effects.map .str) ++
    (r.executorPolicy.map fun policy => ("executor_policy", .str policy.version)).toList ++
    listField "capsule_policies" (r.capsulePolicies.map .str) ++
    listField "denials" (r.denials.map .str) ++ [("signer", .str r.signer)])

def RunReceipt.canonicalBytes : Bytes :=
  codec.toVec r.statement.canonicalizeValue

def manifestDigest : Option String :=
  manifest.map fun value => codec.sha256Hex (codec.toVec value.canonicalizeValue)

def deriveKeyId : String := codec.sha256Hex publicKey

/-! ## Minting -/

def verifiedHead : Result JournalRef :=
  if ¬s.artifactRefs.isEmpty then
    .error (.serialization
      ("journal snapshot references an external artifact store; receipts v1 mint and verify " ++
       "over embedded snapshots"))
  else
    let recomputed := recomputeHeadHash codec s.events
    if recomputed ≠ s.headHash then
      .error (.serialization
        (s!"journal snapshot head hash mismatch: events recompute to {recomputed}, snapshot " ++
         s!"claims {s.headHash}"))
    else .ok ⟨s.events.length, recomputed⟩

def unsignedReceipt (journalHead : JournalRef) : RunReceipt :=
  let components := deriveComponents codec decoders s
  { formatVersion := receiptFormatVersion
    runId := s.runId
    journalHead
    manifestDigest := manifestDigest codec manifest
    manifest
    capsules := components.capsules
    effects := components.effects
    executorPolicy
    capsulePolicies := components.capsulePolicies
    denials := components.denials
    signer := deriveKeyId codec (ed.verifyingKey signingKey)
    signature := "" }

def mintReceipt : Result RunReceipt :=
  match verifiedHead codec s with
  | .error e => .error e
  | .ok head =>
    let receipt := unsignedReceipt codec decoders ed s manifest executorPolicy signingKey head
    .ok { receipt with signature := hexText (ed.sign signingKey (receipt.canonicalBytes codec)) }

/-! ## Verification -/

inductive ReceiptRejection where
  | formatVersion (claimed supported : Nat)
  | externalArtifacts
  | snapshotHead (claimed recomputed : String)
  | runId (claimed snapshot : String)
  | journalHead (claimed recomputed : String)
  | journalLength (claimed actual : Nat)
  | manifestDigest (claimed recomputed : Option String)
  | capsuleResolutions (text : String)
  | effectLedger (text : String)
  | capsulePolicies (text : String)
  | denialsLedger (text : String)
  | signerKeyId (claimed derived : String)
  | signature (text : String)
  deriving DecidableEq

structure VerifiedRun where
  runId : String
  journalHead : JournalRef
  manifestDigest : Option String
  capsules : Capsules
  effectReceipts : Nat
  executorPolicy : Option PolicyVersion
  capsulePolicies : List String
  denials : List String
  signer : String

def sequenceDiff (what : String) (claimed recomputed : List String) : String :=
  if claimed.length ≠ recomputed.length then
    s!"the receipt's {what} ledger holds {claimed.length} entries, the journal recomputes " ++
      s!"{recomputed.length}"
  else
    match (claimed.zip recomputed).zipIdx.find? fun entry => entry.1.1 ≠ entry.1.2 with
    | some ((a, b), index) =>
      s!"the receipt's {what} entry {index} is `{a}`, the journal recomputes `{b}`"
    | none => s!"the receipt's {what} ledger disagrees with the journal"

def pinDiff (recomputed : Capsules) (pin : String × String) : Option String :=
  match recomputed[pin.1]? with
  | none => some
      s!"the receipt resolves pin `{pin.1}` to `{pin.2}`, the journal holds no resolution"
  | some id =>
    if id ≠ pin.2 then some
      s!"the receipt resolves pin `{pin.1}` to `{pin.2}`, the journal recomputes `{id}`"
    else none

def ledgerDiff (what : String) (claimed recomputed : Capsules) : String :=
  match claimed.toList.findSome? (pinDiff recomputed) with
  | some text => text
  | none =>
    match recomputed.keys.find? fun name => !claimed.contains name with
    | some name => s!"the journal resolves pin `{name}`, the receipt's {what} ledger omits it"
    | none => s!"the receipt's {what} ledger disagrees with the journal"

/-- The ledger comparisons of `verify_receipt`, in its order. -/
def compareComponents (components : ReceiptComponents) (r : RunReceipt) :
    Except ReceiptRejection Unit :=
  if components.capsules ≠ r.capsules then
    .error (.capsuleResolutions (ledgerDiff "capsules" r.capsules components.capsules))
  else if components.effects ≠ r.effects then
    .error (.effectLedger (sequenceDiff "effects" r.effects components.effects))
  else if components.capsulePolicies ≠ r.capsulePolicies then
    .error (.capsulePolicies
      (sequenceDiff "capsule policies" r.capsulePolicies components.capsulePolicies))
  else if components.denials ≠ r.denials then
    .error (.denialsLedger (sequenceDiff "denials" r.denials components.denials))
  else .ok ()

/-- The signer and signature checks, last in `verify_receipt`. -/
def verifySignature : Except ReceiptRejection Unit :=
  let derived := deriveKeyId codec publicKey
  if derived ≠ r.signer then .error (.signerKeyId r.signer derived)
  else
    match (hexDecode r.signature).filter (·.length = 64) with
    | none => .error (.signature "the signature is not 64 bytes of hex")
    | some signature =>
      if ed.verifyStrict publicKey (r.canonicalBytes codec) signature then .ok ()
      else .error (.signature "the signature does not verify over the canonical statement")

/-- The checks of `verify_receipt` before the ledgers. -/
def verifyHead : Except ReceiptRejection Unit :=
  let recomputed := recomputeHeadHash codec s.events
  if r.formatVersion ≠ receiptFormatVersion then
    .error (.formatVersion r.formatVersion receiptFormatVersion)
  else if ¬s.artifactRefs.isEmpty then .error .externalArtifacts
  else if recomputed ≠ s.headHash then .error (.snapshotHead s.headHash recomputed)
  else if r.runId ≠ s.runId then .error (.runId r.runId s.runId)
  else if r.journalHead.sha256 ≠ recomputed then
    .error (.journalHead r.journalHead.sha256 recomputed)
  else if r.journalHead.events ≠ s.events.length then
    .error (.journalLength r.journalHead.events s.events.length)
  else
    let digest := manifestDigest codec r.manifest
    if digest ≠ r.manifestDigest then .error (.manifestDigest r.manifestDigest digest) else .ok ()

def verifyReceipt : Except ReceiptRejection VerifiedRun := do
  verifyHead codec s r
  let components := deriveComponents codec decoders s
  compareComponents components r
  verifySignature codec ed r publicKey
  return {
    runId := r.runId, journalHead := r.journalHead, manifestDigest := r.manifestDigest
    capsules := components.capsules, effectReceipts := components.effects.length
    executorPolicy := r.executorPolicy, capsulePolicies := components.capsulePolicies
    denials := components.denials, signer := r.signer }

/-- `verify_receipt_prefix`: the head against the first events of a journal that may have grown. -/
def verifyReceiptPrefix : Except ReceiptRejection Unit :=
  let covered := r.journalHead.events
  let recomputed := recomputeHeadHash codec (s.events.take covered)
  if r.formatVersion ≠ receiptFormatVersion then
    .error (.formatVersion r.formatVersion receiptFormatVersion)
  else if r.runId ≠ s.runId then .error (.runId r.runId s.runId)
  else if s.events.length < covered then .error (.journalLength covered s.events.length)
  else if recomputed ≠ r.journalHead.sha256 then
    .error (.journalHead r.journalHead.sha256 recomputed)
  else verifySignature codec ed r publicKey

end Statement

/-! ## What the checks establish -/

section Checks

variable {codec : Codec} {decoders : LedgerDecoders} {ed : Ed25519} {s : JournalSnapshot}
  {r : RunReceipt}

theorem verifiedHead_eq_ok_iff {head : JournalRef} :
    verifiedHead codec s = .ok head ↔ s.artifactRefs = ∅ ∧
      recomputeHeadHash codec s.events = s.headHash ∧
      head = ⟨s.events.length, recomputeHeadHash codec s.events⟩ := by
  unfold verifiedHead
  by_cases hRefs : s.artifactRefs = ∅
  · by_cases hHead : recomputeHeadHash codec s.events = s.headHash
    · simp [hRefs, hHead, eq_comm]
    · simp [hRefs, hHead]
  · simp [hRefs]

theorem verifyHead_eq_ok_iff :
    verifyHead codec s r = .ok () ↔ r.formatVersion = receiptFormatVersion ∧
      s.artifactRefs = ∅ ∧ recomputeHeadHash codec s.events = s.headHash ∧ r.runId = s.runId ∧
      r.journalHead.sha256 = recomputeHeadHash codec s.events ∧
      r.journalHead.events = s.events.length ∧
      manifestDigest codec r.manifest = r.manifestDigest := by
  unfold verifyHead
  simp only
  split_ifs <;> simp_all

theorem compareComponents_eq_ok_iff {components : ReceiptComponents} :
    compareComponents components r = .ok () ↔ components.capsules = r.capsules ∧
      components.effects = r.effects ∧ components.capsulePolicies = r.capsulePolicies ∧
      components.denials = r.denials := by
  unfold compareComponents
  split_ifs <;> simp_all

theorem verifySignature_of_signed {signingKey : Bytes}
    (hSigner : r.signer = deriveKeyId codec (ed.verifyingKey signingKey))
    (hSignature : r.signature = hexText (ed.sign signingKey (r.canonicalBytes codec))) :
    verifySignature codec ed r (ed.verifyingKey signingKey) = .ok () := by
  have hDecode : (hexDecode r.signature).filter (·.length = 64) =
      some (ed.sign signingKey (r.canonicalBytes codec)) := by
    rw [hSignature, hexDecode_hexText, Option.filter_some, if_pos]
    simpa using ed.length_sign signingKey (r.canonicalBytes codec)
  simp only [verifySignature, hSigner, hDecode, ed.verify_sign, ne_eq, not_true_eq_false,
    if_false, if_true]

theorem verifyReceipt_eq_ok_iff {publicKey : Bytes} :
    (∃ verified, verifyReceipt codec decoders ed s r publicKey = .ok verified) ↔
      verifyHead codec s r = .ok () ∧
      compareComponents (deriveComponents codec decoders s) r = .ok () ∧
      verifySignature codec ed r publicKey = .ok () := by
  simp only [verifyReceipt, bind_eq_ok]
  constructor
  · rintro ⟨verified, _, hHead, _, hComponents, _, hSignature, -⟩
    exact ⟨hHead, hComponents, hSignature⟩
  · rintro ⟨hHead, hComponents, hSignature⟩
    exact ⟨_, (), hHead, (), hComponents, (), hSignature, rfl⟩

theorem verifyReceiptPrefix_eq_ok_iff {publicKey : Bytes} :
    verifyReceiptPrefix codec ed s r publicKey = .ok () ↔
      r.formatVersion = receiptFormatVersion ∧ r.runId = s.runId ∧
      r.journalHead.events ≤ s.events.length ∧
      recomputeHeadHash codec (s.events.take r.journalHead.events) = r.journalHead.sha256 ∧
      verifySignature codec ed r publicKey = .ok () := by
  unfold verifyReceiptPrefix
  simp only
  split_ifs <;> simp_all

variable {manifest : Option Json} {executorPolicy : Option PolicyVersion} {signingKey : Bytes}

theorem mintReceipt_eq_ok
    (hMint : mintReceipt codec decoders ed s manifest executorPolicy signingKey = .ok r) :
    s.artifactRefs = ∅ ∧ recomputeHeadHash codec s.events = s.headHash ∧
      let unsigned := unsignedReceipt codec decoders ed s manifest executorPolicy signingKey
        ⟨s.events.length, recomputeHeadHash codec s.events⟩
      r = { unsigned with
        signature := hexText (ed.sign signingKey (unsigned.canonicalBytes codec)) } := by
  unfold mintReceipt at hMint
  cases hHead : verifiedHead codec s with
  | error e =>
    rw [hHead] at hMint
    cases hMint
  | ok head =>
    obtain ⟨hRefs, hSame, rfl⟩ := verifiedHead_eq_ok_iff.mp hHead
    simp only [hHead] at hMint
    exact ⟨hRefs, hSame, (Except.ok.inj hMint).symm⟩

theorem exists_mintReceipt (decoders : LedgerDecoders) (ed : Ed25519) (manifest : Option Json)
    (executorPolicy : Option PolicyVersion) (signingKey : Bytes) (hRefs : s.artifactRefs = ∅)
    (hHead : recomputeHeadHash codec s.events = s.headHash) :
    ∃ r, mintReceipt codec decoders ed s manifest executorPolicy signingKey = .ok r := by
  have hVerified := verifiedHead_eq_ok_iff.mpr ⟨hRefs, hHead, rfl⟩
  unfold mintReceipt
  rw [hVerified]
  exact ⟨_, rfl⟩

/-- **A minted receipt verifies** against every snapshot with the run id, the events and the
head of the one it was minted over, if the same ledgers are derived from it. -/
theorem verify_minted (s' : JournalSnapshot)
    (hMint : mintReceipt codec decoders ed s manifest executorPolicy signingKey = .ok r)
    (hRunId : s'.runId = s.runId) (hEvents : s'.events = s.events)
    (hHead : s'.headHash = s.headHash) (hRefs : s'.artifactRefs = s.artifactRefs)
    (hDerived : deriveComponents codec decoders s' = deriveComponents codec decoders s) :
    ∃ verified, verifyReceipt codec decoders ed s' r (ed.verifyingKey signingKey) =
      .ok verified := by
  obtain ⟨hNone, hSame, rfl⟩ := mintReceipt_eq_ok hMint
  rw [verifyReceipt_eq_ok_iff]
  refine ⟨?_, ?_, ?_⟩
  · rw [verifyHead_eq_ok_iff, hRefs, hEvents, hHead, hRunId]
    exact ⟨rfl, hNone, hSame, rfl, rfl, rfl, rfl⟩
  · rw [compareComponents_eq_ok_iff, hDerived]
    exact ⟨rfl, rfl, rfl, rfl⟩
  · exact verifySignature_of_signed rfl rfl

end Checks

/-! ## What a verified receipt commits to -/

section Commitment

variable {codec : Codec} {decoders : LedgerDecoders} {ed : Ed25519} {s s' : JournalSnapshot}
  {r : RunReceipt} {manifest : Option Json} {executorPolicy : Option PolicyVersion}
  {signingKey publicKey : Bytes} {verified : VerifiedRun}

theorem sameEvents_of_verified
    (hMint : mintReceipt codec decoders ed s manifest executorPolicy signingKey = .ok r)
    (hVerified : verifyReceipt codec decoders ed s' r publicKey = .ok verified)
    (hSound : ChainSound codec s'.events s.events) : SameEvents s'.events s.events := by
  obtain ⟨-, -, rfl⟩ := mintReceipt_eq_ok hMint
  obtain ⟨hHead, -, -⟩ := verifyReceipt_eq_ok_iff.mp ⟨verified, hVerified⟩
  obtain ⟨-, -, -, -, hSame, -, -⟩ := verifyHead_eq_ok_iff.mp hHead
  exact sameEvents_of_head_eq hSound hSame.symm

/-- **What the prefix check accepts**: every journal of the run that extends the signed one, and
only journals whose first events are the signed ones. -/
theorem receiptPrefix_exact
    (hMint : mintReceipt codec decoders ed s manifest executorPolicy signingKey = .ok r) :
    (∀ (grown : JournalSnapshot) (appended : List RunEvent), grown.runId = s.runId →
      grown.events = s.events ++ appended →
      verifyReceiptPrefix codec ed grown r (ed.verifyingKey signingKey) = .ok ()) ∧
    ∀ (other : JournalSnapshot) (publicKey : Bytes),
      verifyReceiptPrefix codec ed other r publicKey = .ok () →
      ChainSound codec (other.events.take s.events.length) s.events →
      s.events.length ≤ other.events.length ∧
        SameEvents (other.events.take s.events.length) s.events := by
  obtain ⟨-, -, rfl⟩ := mintReceipt_eq_ok hMint
  constructor
  · intro grown appended hRunId hEvents
    rw [verifyReceiptPrefix_eq_ok_iff, hRunId, hEvents]
    refine ⟨rfl, rfl, ?_, ?_, verifySignature_of_signed rfl rfl⟩
    · exact (List.prefix_append _ _).length_le
    · exact congrArg (recomputeHeadHash codec) List.take_left
  · intro other publicKey hAccepted hSound
    obtain ⟨-, -, hLength, hHead, -⟩ := verifyReceiptPrefix_eq_ok_iff.mp hAccepted
    exact ⟨hLength, sameEvents_of_head_eq hSound hHead⟩

structure PayloadsSound (codec : Codec) (artifacts artifacts' : Artifacts) : Prop where
  collisionFree : Set.InjOn codec.sha256Hex
    {b | ∃ address : String, artifacts[address]?.map codec.toVec = some b ∨
      artifacts'[address]?.map codec.toVec = some b}
  roundTrip : ∀ (address : String) (value : Json),
    artifacts[address]? = some value ∨ artifacts'[address]? = some value →
      codec.fromSlice (codec.toVec value) = some value

theorem PayloadsSound.eq_of_address {artifacts artifacts' : Artifacts}
    (h : PayloadsSound codec artifacts artifacts') {address : String} {value value' : Json}
    (hGet : artifacts[address]? = some value) (hGet' : artifacts'[address]? = some value')
    (hAddress : contentAddress codec value = contentAddress codec value') : value = value' := by
  have hBytes : codec.toVec value = codec.toVec value' := by
    apply h.collisionFree
    · exact ⟨address, .inl (by rw [hGet]; rfl)⟩
    · exact ⟨address, .inr (by rw [hGet']; rfl)⟩
    · exact hAddress
  have hParse := congrArg codec.fromSlice hBytes
  rw [h.roundTrip address value (.inl hGet), h.roundTrip address value' (.inr hGet')] at hParse
  exact Option.some.inj hParse

variable {e : RunEvent} {reference : ArtifactRef}

theorem artifact_mem_payloads_canonicalized :
    .artifact reference ∈ (canonicalizedForHash e).payloads ↔ .artifact reference ∈ e.payloads := by
  have hPayload : ∀ payload : Option PayloadRef,
      PayloadRef.artifact reference ∈ (canonicalizedPayload payload).toList ↔
        .artifact reference ∈ payload.toList := by
    intro payload
    cases payload with
    | none => exact Iff.rfl
    | some payload => cases payload <;> simp [canonicalizedPayload]
  simp only [RunEvent.payloads, List.mem_append, canonicalizedForHash, hPayload]

theorem references_of_sameEvents {events events' : List RunEvent} (h : SameEvents events events')
    (hE : e ∈ events) (hMem : .artifact reference ∈ e.payloads) :
    ∃ e' ∈ events', .artifact reference ∈ e'.payloads := by
  have hIn : canonicalizedForHash e ∈ events.map canonicalizedForHash := List.mem_map_of_mem hE
  rw [h] at hIn
  obtain ⟨e', hE', hEq⟩ := List.mem_map.mp hIn
  refine ⟨e', hE', ?_⟩
  rw [← artifact_mem_payloads_canonicalized, hEq, artifact_mem_payloads_canonicalized]
  exact hMem

end Commitment

/-- **What a receipt commits to.** A receipt minted over a snapshot verifies against it. And a
snapshot that verifies against a receipt over a recorded journal has its events, up to the
order of the keys in inline payloads; it has the payloads that these events refer to exactly
when it passes the check of the replay path on them. -/
theorem receipt_commits_iff (codec : Codec) (decoders : LedgerDecoders) (ed : Ed25519)
    (manifest : Option Json) (executorPolicy : Option PolicyVersion) (signingKey : Bytes) :
    (∀ s r, mintReceipt codec decoders ed s manifest executorPolicy signingKey = .ok r →
      ∃ verified, verifyReceipt codec decoders ed s r (ed.verifyingKey signingKey) =
        .ok verified) ∧
    ∀ runId threadId records r s verified,
      let j := (Journal.new codec runId threadId).recordAll codec records
      mintReceipt codec decoders ed j.snapshot manifest executorPolicy signingKey = .ok r →
      verifyReceipt codec decoders ed s r (ed.verifyingKey signingKey) = .ok verified →
      ChainSound codec s.events j.events → PayloadsSound codec s.artifacts j.artifacts →
      (SameEvents s.events j.events ∧
          (∀ e ∈ s.events, ∀ payload ∈ e.payloads, s.resolve payload = j.resolve payload) ↔
        verifySnapshot codec s.pruned = .ok ()) := by
  constructor
  · intro s r hMint
    exact verify_minted s hMint rfl rfl rfl rfl rfl
  · intro runId threadId records r s verified j hMint hVerified hChain hPayloads
    have hSame : SameEvents s.events j.events := sameEvents_of_verified hMint hVerified hChain
    obtain ⟨hHead, -, -⟩ := verifyReceipt_eq_ok_iff.mp ⟨verified, hVerified⟩
    obtain ⟨-, hRefs, hSnapshot, -, -, -, -⟩ := verifyHead_eq_ok_iff.mp hHead
    have hRecorded : Recorded codec j :=
      recorded_recordAll (recorded_new codec runId threadId) records
    have hComplete : Complete j := complete_recordAll codec runId threadId records
    -- the journal has each value that the events refer to, under its address
    have hJournal : ∀ e ∈ s.events, ∀ reference, .artifact reference ∈ e.payloads →
        ∃ value, j.artifacts[reference.sha256]? = some value ∧
          contentAddress codec value = reference.sha256 := by
      intro e hE reference hMem
      obtain ⟨e', hE', hMem'⟩ := references_of_sameEvents hSame hE hMem
      have hPresent := hComplete e' hE' reference hMem'
      rw [Std.ExtTreeMap.mem_iff_isSome_getElem?] at hPresent
      obtain ⟨value, hValue⟩ := Option.isSome_iff_exists.mp hPresent
      exact ⟨value, hValue, hRecorded.addressed _ _ hValue⟩
    rw [verifySnapshot_pruned_iff hRefs hSnapshot, and_iff_right hSame]
    constructor
    · intro hResolve e hE reference hMem
      obtain ⟨value, hValue, hAddress⟩ := hJournal e hE reference hMem
      exact ⟨value, (hResolve e hE _ hMem).trans hValue, hAddress⟩
    · intro hIntact e hE payload hMem
      cases payload with
      | inline value => rfl
      | artifact reference =>
        obtain ⟨value, hValue, hAddress⟩ := hJournal e hE reference hMem
        obtain ⟨found, hFound, hFoundAddress⟩ := hIntact e hE reference hMem
        have hEq : found = value :=
          hPayloads.eq_of_address hFound hValue (hFoundAddress.trans hAddress.symm)
        show s.artifacts[reference.sha256]? = j.artifacts[reference.sha256]?
        rw [hFound, hValue, hEq]

/-! ### One large payload -/

def oneSignature : Ed25519 where
  verifyingKey key := key
  sign _ _ := List.replicate 64 0
  verifyStrict _ _ signature := signature = List.replicate 64 0
  length_sign _ _ := List.length_replicate
  verify_sign _ _ := decide_eq_true rfl

def noDecoders : LedgerDecoders := ⟨fun _ => none, fun _ => none⟩

theorem payloadsSound_sample {payload : Json} (hLength : payload.compact.length = 4098) :
    PayloadsSound (sampleCodec payload) (sampleJournal payload).artifacts
      (sampleJournal payload).artifacts where
  collisionFree := by
    apply (storeSound_sample hLength).collisionFree.mono
    rintro b ⟨address, hB | hB⟩
    · exact .inr ⟨address, hB⟩
    · exact .inr ⟨address, hB⟩
  roundTrip address value h := by
    apply (storeSound_sample hLength).roundTrip address value
    rcases h with h | h
    · exact h
    · exact h

theorem exists_mint_sample {payload : Json} (hLength : payload.compact.length = 4098) :
    ∃ r, mintReceipt (sampleCodec payload) noDecoders oneSignature (sampleJournal payload).snapshot
      none none [] = .ok r := by
  apply exists_mintReceipt
  · rfl
  · exact (recorded_sample hLength).head.symm

theorem receipt_commits_sample :
    ∃ payload, payload = Json.str (String.ofList (List.replicate 4096 'x')) ∧
      let codec := sampleCodec payload
      let s := (sampleJournal payload).snapshot
      ∃ r verified, mintReceipt codec noDecoders oneSignature s none none [] = .ok r ∧
        verifyReceipt codec noDecoders oneSignature s r [] = .ok verified ∧
        ∀ e ∈ s.events, ∀ p ∈ e.payloads, s.resolve p = (sampleJournal payload).resolve p := by
  obtain ⟨payload, hPayload, hLength⟩ := exists_samplePayload
  obtain ⟨hVerifies, hCommits⟩ :=
    receipt_commits_iff (sampleCodec payload) noDecoders oneSignature none none []
  obtain ⟨r, hMint⟩ := exists_mint_sample hLength
  obtain ⟨verified, hVerified⟩ := hVerifies _ r hMint
  refine ⟨payload, hPayload, r, verified, hMint, hVerified, ?_⟩
  have hIff := hCommits "r" "t" [(sampleDraft payload, 0)] r (sampleJournal payload).snapshot
    verified
  rw [recordAll_sample hLength] at hIff
  refine ((hIff hMint hVerified chainSound_sample_self (payloadsSound_sample hLength)).mpr ?_).2
  refine (verifySnapshot_pruned_iff rfl ?_).mpr (intact_sample hLength)
  exact (recorded_sample hLength).head.symm

theorem receiptPrefix_exact_sample :
    ∃ payload, payload = Json.str (String.ofList (List.replicate 4096 'x')) ∧
      let codec := sampleCodec payload
      let s := (sampleJournal payload).snapshot
      ∃ r, mintReceipt codec noDecoders oneSignature s none none [] = .ok r ∧
        verifyReceiptPrefix codec oneSignature
          { s with events := s.events ++ [sampleEvent .error] } r [] = .ok () := by
  obtain ⟨payload, hPayload, hLength⟩ := exists_samplePayload
  obtain ⟨r, hMint⟩ := exists_mint_sample hLength
  exact ⟨payload, hPayload, r, hMint, (receiptPrefix_exact hMint).1 _ _ rfl rfl⟩

/-- The receipt of the sample journal also verifies against its snapshot with another value
under the address that its event refers to. -/
theorem receipt_misses_payload :
    ∃ payload, payload = Json.str (String.ofList (List.replicate 4096 'x')) ∧
      let codec := sampleCodec payload
      let j := sampleJournal payload
      let s := { j.snapshot with artifacts := (∅ : Artifacts).insert sampleAddress .null }
      ∃ r verified, mintReceipt codec noDecoders oneSignature j.snapshot none none [] = .ok r ∧
        verifyReceipt codec noDecoders oneSignature s r [] = .ok verified ∧
        .artifact ⟨sampleAddress, 4098⟩ ∈ (sampleEvent .ok).payloads ∧
        sampleEvent .ok ∈ s.events ∧
        s.resolve (.artifact ⟨sampleAddress, 4098⟩) = some .null ∧
        j.resolve (.artifact ⟨sampleAddress, 4098⟩) = some payload := by
  obtain ⟨payload, hPayload, hLength⟩ := exists_samplePayload
  obtain ⟨r, hMint⟩ := exists_mint_sample hLength
  obtain ⟨verified, hVerified⟩ := verify_minted
    { (sampleJournal payload).snapshot with
      artifacts := (∅ : Artifacts).insert sampleAddress .null } hMint rfl rfl rfl rfl rfl
  refine ⟨payload, hPayload, r, verified, hMint, hVerified, List.mem_singleton_self _,
    List.mem_singleton_self _, ?_, ?_⟩
  · exact Std.ExtTreeMap.getElem?_insert_self
  · show ((∅ : Artifacts).insertIfNew sampleAddress payload)[sampleAddress]? = some payload
    rw [Std.ExtTreeMap.getElem?_insertIfNew, if_pos (by simp)]

end RustyRuntime
