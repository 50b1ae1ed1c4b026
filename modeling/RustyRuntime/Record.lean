import RustyRuntime.State.Channels

/-!
# Records shared by checkpoints, journals and the inbox

The data of `record.rs` and `inbox.rs` that more than one component stores, and `Codec`,
the foreign functions they are stored with. The run manifest of a checkpoint header is
kept as the JSON it serializes to: no modelled function looks inside it.
-/

namespace RustyRuntime

/-- The bytes of a file or of a hash input. -/
abbrev Bytes := List UInt8

/-- The functions the crate takes from `serde_json` and `sha2`. -/
structure Codec where
  /-- `serde_json::to_vec` on a value, fields in the order the value holds them. -/
  toVec : Json → Bytes
  /-- `serde_json::from_slice`. -/
  fromSlice : Bytes → Option Json
  /-- The lowercase hex SHA-256 digest. -/
  sha256Hex : Bytes → String
  /-- The RFC 3339 text of a UTC timestamp in nanoseconds. -/
  timestamp : Int → String

def hexText (bytes : Bytes) : String :=
  String.ofList (bytes.flatMap fun b => [Json.hexDigit (b.toNat / 16), Json.hexDigit (b.toNat % 16)])

def plainCodec : Codec where
  toVec := Json.compact
  fromSlice _ := none
  sha256Hex := hexText
  timestamp t := toString t

theorem slash_ne_hexDigit (n : Nat) : '/' ≠ Json.hexDigit n := by
  by_cases h : n < 16
  · interval_cases n <;> decide
  · rw [Json.hexDigit, List.getD_eq_default _ _ (Nat.le_of_not_lt h)]
    decide

theorem slash_notMem_hexText (bytes : Bytes) : '/' ∉ (hexText bytes).toList := by
  simp [hexText, slash_ne_hexDigit]

theorem hexDigit_injective : ∀ m n : Fin 16, Json.hexDigit m = Json.hexDigit n → m = n := by
  decide

theorem hexText_injective : Function.Injective hexText := by
  intro bytes bytes' h
  rw [hexText, hexText, ← String.toList_inj, String.toList_ofList, String.toList_ofList] at h
  induction bytes generalizing bytes' with
  | nil =>
    cases bytes' with
    | nil => rfl
    | cons b' rest' => simp at h
  | cons b rest ih =>
    cases bytes' with
    | nil => simp at h
    | cons b' rest' =>
      simp only [List.flatMap_cons, List.cons_append, List.nil_append, List.cons.injEq] at h
      obtain ⟨hHigh, hLow, hRest⟩ := h
      have hBound : b.toNat < 256 := b.toNat_lt
      have hBound' : b'.toNat < 256 := b'.toNat_lt
      have hDiv := hexDigit_injective ⟨b.toNat / 16, by omega⟩ ⟨b'.toNat / 16, by omega⟩ hHigh
      have hMod := hexDigit_injective ⟨b.toNat % 16, by omega⟩ ⟨b'.toNat % 16, by omega⟩ hLow
      simp only [Fin.mk.injEq] at hDiv hMod
      have hSame : b = b' := UInt8.toNat_inj.mp (by omega)
      rw [hSame, ih hRest]

/-! ## Inbox messages -/

/-- The queue an inbox message lives in. -/
inductive InboxKind where
  | steering
  | followUp
  | injected
  deriving DecidableEq, Repr

structure InboxMessage where
  seq : Nat
  kind : InboxKind
  sender : String
  content : Json
  deriving DecidableEq

/-- The durable queue state of an inbox. -/
structure InboxSnapshot where
  steering : List InboxMessage
  followups : List InboxMessage
  staged : List InboxMessage
  nextSeq : Nat
  pendingDelivery : List InboxMessage
  deriving DecidableEq

/-! ## Checkpoint headers -/

/-- `CURRENT_FORMAT_VERSION`. -/
def currentFormatVersion : UInt32 := 1

/-- `PolicyVersion`, with the static default. -/
structure PolicyVersion where
  version : String := "static-v0"
  deriving DecidableEq

/-- The provenance header stamped into every checkpoint; the defaults are those of
`CheckpointHeader::default`. -/
structure CheckpointHeader where
  formatVersion : UInt32 := currentFormatVersion
  graphVersion : String := "unversioned"
  graphHash : String := ""
  policyVersion : PolicyVersion := {}
  logicalClock : UInt64 := 0
  manifest : Option Json := none
  inbox : Option InboxSnapshot := none
  deriving DecidableEq

/-- The journal head at a checkpoint boundary. -/
structure JournalRef where
  events : Nat
  sha256 : String
  deriving DecidableEq

end RustyRuntime
