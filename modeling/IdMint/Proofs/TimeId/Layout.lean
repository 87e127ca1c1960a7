import IdMint.TimeId

/-! The fields tile the word. Packing keeps the low bits of each field, and among identifiers of one
precision the order of words is the order of timestamp, sequence number and node. -/
namespace IdMint.TimeId

variable {a b : TimeId}

theorem toNat_raw_second (t s n : Nat) :
    (ofFields .second t s n).raw.toNat =
      t % 4294967296 * 4294967296 + s % 2097152 * 2048 + n % 1024 * 2 := by
  simp only [ofFields, UInt64.toNat_ofNat', Precision.timestampBits, Precision.timestampShift,
    Precision.sequenceBits, Precision.bit, sequenceShift, nodeBits, nodeShift, Nat.shiftLeft_eq]
  omega

theorem toNat_raw_millisecond (t s n : Nat) :
    (ofFields .millisecond t s n).raw.toNat =
      t % 4398046511104 * 4194304 + s % 2048 * 2048 + n % 1024 * 2 + 1 := by
  simp only [ofFields, UInt64.toNat_ofNat', Precision.timestampBits, Precision.timestampShift,
    Precision.sequenceBits, Precision.bit, sequenceShift, nodeBits, nodeShift, Nat.shiftLeft_eq]
  omega

theorem node_eq (a : TimeId) : a.node = a.raw.toNat / 2 % 1024 := by
  simp only [node, nodeShift, nodeBits, Nat.shiftRight_eq_div_pow, Nat.shiftLeft_eq]

/-- The fields of a word whose lowest bit is clear. -/
theorem fields_second (h : a.raw.toNat % 2 = 0) :
    a.precision = .second ∧ a.timestamp = a.raw.toNat / 4294967296 ∧
      a.sequence = a.raw.toNat / 2048 % 2097152 := by
  have hp : a.precision = .second := by rw [precision, Precision.ofBit, if_pos h]
  refine ⟨hp, ?_, ?_⟩
  · simp only [timestamp, hp, Precision.timestampShift, Precision.timestampBits,
      Nat.shiftRight_eq_div_pow]
  · simp only [sequence, hp, sequenceShift, Precision.sequenceBits, Nat.shiftRight_eq_div_pow,
      Nat.shiftLeft_eq]

/-- The fields of a word whose lowest bit is set. -/
theorem fields_millisecond (h : a.raw.toNat % 2 = 1) :
    a.precision = .millisecond ∧ a.timestamp = a.raw.toNat / 4194304 ∧
      a.sequence = a.raw.toNat / 2048 % 2048 := by
  have hp : a.precision = .millisecond := by rw [precision, Precision.ofBit, if_neg (by omega)]
  refine ⟨hp, ?_, ?_⟩
  · simp only [timestamp, hp, Precision.timestampShift, Precision.timestampBits,
      Nat.shiftRight_eq_div_pow]
  · simp only [sequence, hp, sequenceShift, Precision.sequenceBits, Nat.shiftRight_eq_div_pow,
      Nat.shiftLeft_eq]

/-- Packing keeps of each field as many low bits as the precision gives it. -/
theorem fields_ofFields (p : Precision) (t s n : Nat) :
    (ofFields p t s n).precision = p ∧
    (ofFields p t s n).timestamp = t % (p.maxTimestamp + 1) ∧
    (ofFields p t s n).sequence = s % (p.maxSequence + 1) ∧
    (ofFields p t s n).node = n % (maxNode + 1) := by
  rw [node_eq]
  cases p with
  | second =>
    have hr := toNat_raw_second t s n
    obtain ⟨hp, ht, hs⟩ := fields_second (a := ofFields .second t s n) (by omega)
    rw [ht, hs, hr]
    refine ⟨hp, ?_, ?_, ?_⟩
    · change _ = t % 4294967296
      omega
    · change _ = s % 2097152
      omega
    · change _ = n % 1024
      omega
  | millisecond =>
    have hr := toNat_raw_millisecond t s n
    obtain ⟨hp, ht, hs⟩ := fields_millisecond (a := ofFields .millisecond t s n) (by omega)
    rw [ht, hs, hr]
    refine ⟨hp, ?_, ?_, ?_⟩
    · change _ = t % 4398046511104
      omega
    · change _ = s % 2048
      omega
    · change _ = n % 1024
      omega

theorem sequence_le (a : TimeId) : a.sequence ≤ a.precision.maxSequence := by
  rw [sequence, Precision.maxSequence]
  have hpos : 0 < 1 <<< a.precision.sequenceBits := by cases a.precision <;> decide
  have hlt := Nat.mod_lt (a.raw.toNat >>> sequenceShift) hpos
  omega

/-- Identifiers of one precision have the same lowest bit. -/
theorem parity_eq (hp : a.precision = b.precision) : a.raw.toNat % 2 = b.raw.toNat % 2 := by
  rcases Nat.mod_two_eq_zero_or_one a.raw.toNat with ha | ha <;>
    rcases Nat.mod_two_eq_zero_or_one b.raw.toNat with hb | hb <;>
    simp [precision, Precision.ofBit, ha, hb] at hp ⊢

/-- The fields weigh as they lie in the word: first the timestamp, then the sequence number, and
then the node. -/
theorem lt_iff_fields (hp : a.precision = b.precision) : a < b ↔ a.timestamp < b.timestamp ∨
    a.timestamp = b.timestamp ∧
      (a.sequence < b.sequence ∨ a.sequence = b.sequence ∧ a.node < b.node) := by
  have hparity := parity_eq hp
  have hlt : a < b ↔ a.raw.toNat < b.raw.toNat := UInt64.lt_iff_toNat_lt
  rw [hlt, node_eq, node_eq]
  rcases Nat.mod_two_eq_zero_or_one a.raw.toNat with ha | ha
  · obtain ⟨_, hta, hsa⟩ := fields_second ha
    obtain ⟨_, htb, hsb⟩ := fields_second (hparity ▸ ha)
    rw [hta, htb, hsa, hsb]
    omega
  · obtain ⟨_, hta, hsa⟩ := fields_millisecond ha
    obtain ⟨_, htb, hsb⟩ := fields_millisecond (hparity ▸ ha)
    rw [hta, htb, hsa, hsb]
    omega

/-- A later timestamp, or the same one with a later sequence number, makes a larger word. -/
theorem lt_of_timestamp_sequence (hp : a.precision = b.precision)
    (h : a.timestamp < b.timestamp ∨ a.timestamp = b.timestamp ∧ a.sequence < b.sequence) :
    a < b := by
  rw [lt_iff_fields hp]
  rcases h with ht | ⟨ht, hs⟩
  · exact Or.inl ht
  · exact Or.inr ⟨ht, Or.inl hs⟩

end IdMint.TimeId
