import IdMint.Proofs.Calendar
import IdMint.Proofs.Decimal.Reading
import IdMint.Proofs.TimeId.Fields

/-! The rendered form says everything about an identifier. Its hyphens part it again, the civil time
in front tells the tick, and with the three numbers behind the tick makes up the word. -/
namespace IdMint

open Calendar

/-- The parts of a text between its hyphens. -/
def hyphened (s : String) : List String := (s.split '-').toList.map (·.copy)

theorem hyphened_intercalate {parts : List String} (hne : parts ≠ [])
    (h : ∀ s ∈ parts, '-' ∉ s.toList) : hyphened ("-".intercalate parts) = parts := by
  have hsplit := String.toList_split_intercalate h
  rw [if_neg hne] at hsplit
  exact hsplit

def Precision.tickMillis : Precision → Nat
  | .second => 1000
  | .millisecond => 1

namespace TimeId

/-- Reads the rendered form. The last three parts are the sequence number, the node and the
precision bit, and those before them are the civil time of the tick. -/
def ofRendered? (s : String) : Option TimeId := do
  let parts := hyphened s
  let t ← DateTime.ofParts? (parts.take (parts.length - 3))
  match (parts.drop (parts.length - 3)).map Decimal.read with
  | [.ok sequence, .ok node, .ok bit] =>
    let p := Precision.ofBit bit.toNat
    return ofFields p (p.tickOfMillis (t.toUnixMillis - epochMillis)) sequence.toNat node.toNat
  | _ => none

/-- The parts of the rendered form in front of the three numbers. -/
def civilParts (id : TimeId) : List String :=
  id.dateTime.parts ++ match id.precision with
    | .second => []
    | .millisecond => [Decimal.padded 3 id.dateTime.milli]

variable (id : TimeId)

theorem renderParts_eq : id.renderParts = id.civilParts ++
    [Decimal.text id.sequence, Decimal.text id.node, Decimal.text id.precision.bit] := rfl

theorem length_civilParts :
    id.civilParts.length = match id.precision with | .second => 6 | .millisecond => 7 := by
  rw [civilParts]
  cases id.precision <;> rfl

theorem hyphened_render : hyphened id.render = id.renderParts := by
  have hne : id.renderParts ≠ [] := by simp [renderParts_eq]
  apply hyphened_intercalate hne
  intro s hs
  rw [renderParts_eq, civilParts] at hs
  simp only [List.mem_append] at hs
  rcases hs with (hs | hs) | hs
  · exact DateTime.hyphen_not_mem_parts s hs
  · cases hp : id.precision with
    | second => simp [hp] at hs
    | millisecond =>
      rw [hp] at hs
      obtain rfl := List.mem_singleton.mp hs
      exact Decimal.hyphen_not_mem_padded 3 _
  · simp only [List.mem_cons, List.not_mem_nil, or_false] at hs
    rcases hs with rfl | rfl | rfl <;> exact Decimal.hyphen_not_mem_text _

/-- Milliseconds are counted without being cut short. -/
theorem elapsedMillis_eq : id.elapsedMillis = id.timestamp * id.precision.tickMillis ∧
    id.elapsedMillis < 2 ^ 42 := by
  have hlt := id.fields_lt.1
  have hsize : UInt64.size = 18446744073709551616 := rfl
  rw [elapsedMillis]
  cases hp : id.precision with
  | second =>
    rw [hp, Precision.timestampBits] at hlt
    rw [Precision.millisOfTick, Precision.tickMillis, Nat.min_eq_left (by omega)]
    exact ⟨rfl, by omega⟩
  | millisecond =>
    rw [hp] at hlt
    exact ⟨(Nat.mul_one _).symm, hlt⟩

theorem tickOfMillis_elapsedMillis : id.precision.tickOfMillis id.elapsedMillis = id.timestamp := by
  rw [id.elapsedMillis_eq.1]
  cases id.precision with
  | second => exact Nat.mul_div_cancel _ (by decide)
  | millisecond => exact Nat.mul_one _

theorem unixMillis_lt : id.unixMillis < 2 ^ 43 := by
  have hlt := id.elapsedMillis_eq.2
  rw [unixMillis, epochMillis]
  omega

/-- Ticks lie in the years from the epoch on that the widest timestamp reaches. -/
theorem year_dateTime : 2019 ≤ id.dateTime.year ∧ id.dateTime.year ≤ 2158 := by
  have hlt := id.elapsedMillis_eq.2
  have hfirst := DateTime.daysBeforeYear_eq (by decide : 1970 ≤ 2019)
  have hpast := DateTime.daysBeforeYear_eq (by decide : 1970 ≤ 2159)
  have hunix : id.unixMillis = 1546300800000 + id.elapsedMillis := rfl
  rw [dateTime]
  constructor
  · rw [DateTime.le_year_iff (by decide)]
    omega
  · by_contra hlate
    have hafter : 2159 ≤ (DateTime.ofUnixMillis id.unixMillis).year := Nat.not_le.mp hlate
    rw [DateTime.le_year_iff (by decide)] at hafter
    omega

theorem milli_dateTime (h : id.precision = .second) : id.dateTime.milli = 0 := by
  have hmilli : id.dateTime.milli = (1546300800000 + id.elapsedMillis) % 1000 := rfl
  rw [hmilli, id.elapsedMillis_eq.1, h, Precision.tickMillis]
  omega

theorem ofParts?_civilParts : DateTime.ofParts? id.civilParts = some id.dateTime := by
  have hyear := id.year_dateTime.2
  have hvalid : id.dateTime.Valid := DateTime.valid_ofUnixMillis _
  apply DateTime.ofParts?_append hvalid (by omega)
  cases hp : id.precision with
  | second => rw [id.milli_dateTime hp]; rfl
  | millisecond => exact Decimal.ofWidth?_padded (by decide) hvalid.milli

end TimeId

/-- Parts that say everything about an identifier: first a civil time of the years that ticks reach,
which tells the tick, and then the decimal numbers that make up the word with it. -/
structure TimeId.Describes (parts : List String) (id : TimeId) (t : DateTime) : Prop where
  length : parts.length = match id.precision with
    | .second => 9
    | .millisecond => 10
  civil : DateTime.ofParts? (parts.take (parts.length - 3)) = some t
  valid : t.Valid
  year : 2019 ≤ t.year ∧ t.year ≤ 2158
  instant : t.toUnixMillis = epochMillis + id.elapsedMillis
  numbers : parts.drop (parts.length - 3) =
    [Decimal.text id.sequence, Decimal.text id.node, Decimal.text id.precision.bit]
  word : ofFields (.ofBit id.precision.bit)
    (id.precision.tickOfMillis (t.toUnixMillis - epochMillis)) id.sequence id.node = id

namespace TimeId

variable {id : TimeId} {s : String} {t : DateTime}

theorem ofBit_bit (p : Precision) : Precision.ofBit p.bit = p := by
  cases p <;> rfl

theorem describes_render (id : TimeId) : Describes (hyphened id.render) id id.dateTime := by
  have hcount : id.renderParts.length - 3 = id.civilParts.length := by
    rw [renderParts_eq, List.length_append]
    rfl
  have hinstant : id.dateTime.toUnixMillis = epochMillis + id.elapsedMillis :=
    DateTime.toUnixMillis_ofUnixMillis _
  rw [hyphened_render]
  constructor
  · rw [renderParts_eq, List.length_append, length_civilParts]
    cases id.precision <;> rfl
  · rw [hcount, renderParts_eq, List.take_left, ofParts?_civilParts]
  · exact DateTime.valid_ofUnixMillis _
  · exact id.year_dateTime
  · exact hinstant
  · rw [hcount, renderParts_eq, List.drop_left]
  · rw [hinstant, Nat.add_sub_cancel_left, tickOfMillis_elapsedMillis, ofBit_bit, ofFields_fields]

/-- A text whose parts describe an identifier is read as that identifier. -/
theorem ofRendered?_of_describes (h : Describes (hyphened s) id t) : ofRendered? s = some id := by
  have hbit : id.precision.bit < UInt64.size := by cases id.precision <;> decide
  have hsequence : id.sequence < UInt64.size := by
    have hlt := id.fields_lt.2.1
    cases hp : id.precision <;> rw [hp] at hlt <;> exact Nat.lt_trans hlt (by decide)
  have hnode : id.node < UInt64.size := Nat.lt_trans id.fields_lt.2.2 (by decide)
  have hword := h.word
  simp only [ofRendered?, h.civil, h.numbers, List.map_cons, List.map_nil,
    Decimal.read_text hsequence, Decimal.read_text hnode, Decimal.read_text hbit,
    UInt64.toNat_ofNat_of_lt' hsequence, UInt64.toNat_ofNat_of_lt' hnode,
    UInt64.toNat_ofNat_of_lt' hbit]
  rw [ofBit_bit] at hword ⊢
  exact congrArg some hword

/-- The rendered form describes its identifier. Its civil time counts from the start of 2019, no
number on the way to it is cut short or grows beyond a word, and it is read as the identifier that
it was made from, so that no two identifiers share it. -/
theorem render_faithful :
    DateTime.toUnixMillis ⟨2019, 1, 1, 0, 0, 0, 0⟩ = epochMillis ∧
    (∀ id : TimeId, ∃ t, Describes (hyphened id.render) id t) ∧
    (∀ id : TimeId, id.elapsedMillis = id.timestamp * id.precision.tickMillis ∧
      id.unixMillis < 2 ^ 43) ∧
    (∀ id : TimeId, ofRendered? id.render = some id) ∧
    Function.Injective render := by
  have hread (id : TimeId) : ofRendered? id.render = some id :=
    ofRendered?_of_describes id.describes_render
  refine ⟨by decide +kernel, fun id => ⟨_, id.describes_render⟩, ?_, hread, ?_⟩
  · intro id
    exact ⟨id.elapsedMillis_eq.1, id.unixMillis_lt⟩
  · intro a b h
    have hsame := hread a
    rw [h, hread b] at hsame
    exact (Option.some.inj hsame).symm

end TimeId

end IdMint
