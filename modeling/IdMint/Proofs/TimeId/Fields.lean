import IdMint.Proofs.TimeId.Layout
import Mathlib.Algebra.Order.Ring.Nat

/-! Identifiers are in one-to-one correspondence with the fields that fit them, so no two ways of
filling the fields share a word and no word is left over. -/
namespace IdMint.TimeId

/-- Fields that fit an identifier. How wide the first two may be is up to the precision. -/
structure Fields where
  precision : Precision
  timestamp : Nat
  sequence : Nat
  node : Nat
  timestamp_lt : timestamp < 2 ^ precision.timestampBits
  sequence_lt : sequence < 2 ^ precision.sequenceBits
  node_lt : node < 2 ^ nodeBits

def Fields.pack (x : Fields) : TimeId := ofFields x.precision x.timestamp x.sequence x.node

theorem one_shiftLeft_sub_one_add_one (n : Nat) : 1 <<< n - 1 + 1 = 2 ^ n := by
  rw [Nat.one_shiftLeft, Nat.sub_add_cancel Nat.one_le_two_pow]

/-- Of a number that is too wide for its field only the low bits are written, and no other field
changes. -/
theorem fields_ofFields_mod (p : Precision) (t s n : Nat) :
    (ofFields p t s n).precision = p ∧
    (ofFields p t s n).timestamp = t % 2 ^ p.timestampBits ∧
    (ofFields p t s n).sequence = s % 2 ^ p.sequenceBits ∧
    (ofFields p t s n).node = n % 2 ^ nodeBits := by
  have h := fields_ofFields p t s n
  simp only [Precision.maxTimestamp, Precision.maxSequence, maxNode,
    one_shiftLeft_sub_one_add_one] at h
  exact h

/-- An identifier is made up of its fields. -/
@[simp] theorem ofFields_fields (a : TimeId) :
    ofFields a.precision a.timestamp a.sequence a.node = a := by
  have hlt : a.raw.toNat < 18446744073709551616 := a.raw.toNat_lt
  refine congrArg TimeId.mk (UInt64.toNat_inj.mp ?_)
  change (ofFields a.precision a.timestamp a.sequence a.node).raw.toNat = a.raw.toNat
  rw [node_eq]
  rcases Nat.mod_two_eq_zero_or_one a.raw.toNat with h | h
  · obtain ⟨hp, ht, hs⟩ := fields_second h
    rw [hp, ht, hs, toNat_raw_second]
    omega
  · obtain ⟨hp, ht, hs⟩ := fields_millisecond h
    rw [hp, ht, hs, toNat_raw_millisecond]
    omega

theorem fields_lt (a : TimeId) : a.timestamp < 2 ^ a.precision.timestampBits ∧
    a.sequence < 2 ^ a.precision.sequenceBits ∧ a.node < 2 ^ nodeBits := by
  have h := fields_ofFields_mod a.precision a.timestamp a.sequence a.node
  rw [ofFields_fields] at h
  obtain ⟨_, ht, hs, hn⟩ := h
  have hlt (n k : Nat) : n % 2 ^ k < 2 ^ k := Nat.mod_lt n (Nat.two_pow_pos k)
  exact ⟨ht.trans_lt (hlt ..), hs.trans_lt (hlt ..), hn.trans_lt (hlt ..)⟩

def fields (a : TimeId) : Fields :=
  ⟨a.precision, a.timestamp, a.sequence, a.node, a.fields_lt.1, a.fields_lt.2.1, a.fields_lt.2.2⟩

theorem pack_fields (a : TimeId) : a.fields.pack = a := ofFields_fields a

theorem fields_pack (x : Fields) : x.pack.fields = x := by
  obtain ⟨p, t, s, n, ht, hs, hn⟩ := x
  obtain ⟨hp, htick, hseq, hnode⟩ := fields_ofFields_mod p t s n
  rw [Nat.mod_eq_of_lt ht] at htick
  rw [Nat.mod_eq_of_lt hs] at hseq
  rw [Nat.mod_eq_of_lt hn] at hnode
  simp only [fields, Fields.pack, hp, htick, hseq, hnode]

/-- Packing keeps the low bits of each field, unpacking and packing again gives every identifier
back, and so the fields that fit correspond one to one to the words. -/
theorem layout_bijective :
    (∀ p t s n, (ofFields p t s n).precision = p ∧
      (ofFields p t s n).timestamp = t % 2 ^ p.timestampBits ∧
      (ofFields p t s n).sequence = s % 2 ^ p.sequenceBits ∧
      (ofFields p t s n).node = n % 2 ^ nodeBits) ∧
    (∀ a : TimeId, ofFields a.precision a.timestamp a.sequence a.node = a) ∧
    Function.Bijective fun x : Fields => x.pack.raw := by
  refine ⟨fields_ofFields_mod, ofFields_fields, ?_, ?_⟩
  · intro x y h
    have hpack : x.pack = y.pack := congrArg TimeId.mk h
    rw [← fields_pack x, hpack, fields_pack]
  · intro word
    exact ⟨fields ⟨word⟩, congrArg TimeId.raw (pack_fields ⟨word⟩)⟩

end IdMint.TimeId
