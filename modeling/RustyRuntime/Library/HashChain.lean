import Mathlib

/-!
# Hash chains

A hash chain commits to a list of entries: the digest starts at the hash of a fixed genesis
input, and each entry hashes its encoding together with the digest before it. `chainHead_injective`
is the commitment: two lists with the same head are the same list.

Collision freedom is asked of the inputs that the two chains really hash, and of the encoding
only that it separates digest and entry.
-/

namespace RustyRuntime.Library

variable {ε β δ : Type}

section

variable (hash : β → δ) (encode : δ → ε → β) (genesis : β) (entries : List ε)

def chainFrom (digest : δ) (entries : List ε) : δ :=
  entries.foldl (fun d e => hash (encode d e)) digest

def chainHead : δ :=
  chainFrom hash encode (hash genesis) entries

/-- The inputs hashed for the entries, from a given digest. -/
def inputsFrom (hash : β → δ) (encode : δ → ε → β) : δ → List ε → List β
  | _, [] => []
  | d, e :: rest => encode d e :: inputsFrom hash encode (hash (encode d e)) rest

def chainInputs : List β :=
  genesis :: inputsFrom hash encode (hash genesis) entries

end

variable {hash : β → δ} {encode : δ → ε → β} {genesis : β}

section

variable (digest : δ) (entries : List ε) (e : ε)

theorem chainFrom_append :
    chainFrom hash encode digest (entries ++ [e]) =
      hash (encode (chainFrom hash encode digest entries) e) := by
  simp [chainFrom]

theorem inputsFrom_append :
    inputsFrom hash encode digest (entries ++ [e]) =
      inputsFrom hash encode digest entries ++ [encode (chainFrom hash encode digest entries) e] := by
  induction entries generalizing digest with
  | nil => rfl
  | cons first rest ih =>
    simp only [List.cons_append, inputsFrom, ih, chainFrom, List.foldl_cons]

theorem chainHead_append :
    chainHead hash encode genesis (entries ++ [e]) =
      hash (encode (chainHead hash encode genesis entries) e) :=
  chainFrom_append _ entries e

theorem chainInputs_append :
    chainInputs hash encode genesis (entries ++ [e]) =
      chainInputs hash encode genesis entries ++
        [encode (chainHead hash encode genesis entries) e] := by
  rw [chainInputs, inputsFrom_append]
  rfl

end

theorem exists_hash_eq_chainHead (hash : β → δ) (encode : δ → ε → β) (genesis : β)
    (entries : List ε) : ∃ b, hash b = chainHead hash encode genesis entries := by
  induction entries using List.reverseRecOn with
  | nil => exact ⟨genesis, rfl⟩
  | append_singleton entries e _ => exact ⟨_, (chainHead_append entries e).symm⟩

/-- **A chain head commits to its entries.** -/
theorem chainHead_injective {xs ys : List ε}
    (hHash : Set.InjOn hash
      {b | b ∈ chainInputs hash encode genesis xs ∨ b ∈ chainInputs hash encode genesis ys})
    (hEncode : ∀ b b', ∀ x ∈ xs, ∀ y ∈ ys,
      encode (hash b) x = encode (hash b') y → hash b = hash b' ∧ x = y)
    (hGenesis : ∀ b e, encode (hash b) e ≠ genesis)
    (hHead : chainHead hash encode genesis xs = chainHead hash encode genesis ys) : xs = ys := by
  induction xs using List.reverseRecOn generalizing ys with
  | nil =>
    induction ys using List.reverseRecOn with
    | nil => rfl
    | append_singleton ys y _ =>
      rw [chainHead_append] at hHead
      have hInput := hHash (.inl List.mem_cons_self)
        (.inr (by rw [chainInputs_append]; simp)) hHead
      obtain ⟨b, hB⟩ := exists_hash_eq_chainHead hash encode genesis ys
      exact absurd (hB ▸ hInput.symm) (hGenesis b y)
  | append_singleton xs x ih =>
    induction ys using List.reverseRecOn with
    | nil =>
      rw [chainHead_append] at hHead
      have hInput := hHash (.inl (by rw [chainInputs_append]; simp))
        (.inr List.mem_cons_self) hHead
      obtain ⟨b, hB⟩ := exists_hash_eq_chainHead hash encode genesis xs
      exact absurd (hB ▸ hInput) (hGenesis b x)
    | append_singleton ys y _ =>
      rw [chainHead_append, chainHead_append] at hHead
      have hInput := hHash (.inl (by rw [chainInputs_append]; simp))
        (.inr (by rw [chainInputs_append]; simp)) hHead
      obtain ⟨b, hB⟩ := exists_hash_eq_chainHead hash encode genesis xs
      obtain ⟨b', hB'⟩ := exists_hash_eq_chainHead hash encode genesis ys
      rw [← hB, ← hB'] at hInput
      obtain ⟨hPrev, rfl⟩ := hEncode b b' x (by simp) y (by simp) hInput
      rw [hB, hB'] at hPrev
      have hInit : xs = ys := by
        refine ih (hHash.mono ?_) (fun c c' u hU v hV => hEncode c c' u (by simp [hU]) v
          (by simp [hV])) hPrev
        rintro input (hIn | hIn)
        · exact .inl (by rw [chainInputs_append]; exact List.mem_append_left _ hIn)
        · exact .inr (by rw [chainInputs_append]; exact List.mem_append_left _ hIn)
      rw [hInit]

end RustyRuntime.Library
