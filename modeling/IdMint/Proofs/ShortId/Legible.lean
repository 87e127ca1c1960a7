import IdMint.Proofs.ShortId.Uniqueness

/-! Once it is known how many symbols the milliseconds take, the fields can be read off a text. So
texts are told apart wherever milliseconds take equally many. -/
namespace IdMint

open Digits

/-- How many symbols of an alphabet a number takes: as many as its bits fill, and at least one. -/
def Alphabet.symbolCount (a : Alphabet) (n : Nat) : Nat := max 1 (n.size ⌈/⌉ a.dataBits)

theorem Alphabet.width_eq_symbolCount (a : Alphabet) (n : Nat) :
    width (1 <<< a.dataBits) n = a.symbolCount n := by
  have hbits : 0 < a.dataBits := by rcases a.size_eq with h | h <;> simp [dataBits, bits, h]
  rw [Nat.one_shiftLeft, width_two_pow hbits, symbolCount]

namespace ShortId

variable {a : Alphabet} {base k : Nat} {ds : List Nat} {x y : Mark}

/-- Digits that spell the fields of a mark, where the milliseconds take the first `k`. -/
structure Mark.SpelledBy (base k : Nat) (ds : List Nat) (x : Mark) : Prop where
  millis : value base (ds.take k) = x.millis
  worker : ds[k]? = some x.worker
  counter : value base (ds.drop (k + 1)) = x.counter
  no_counter : ds.drop (k + 1) = [] ↔ x.counter = 0

theorem Mark.spelledBy_digits (hw : x.worker < base) :
    x.SpelledBy base (width base x.millis) (x.digits base) := by
  have hsplit : x.digits base = ofNat base x.millis ++
      (x.worker :: if x.counter = 0 then [] else ofNat base x.counter) := by
    rw [digits, ofNat_of_lt hw, List.singleton_append]
  have htail : (x.digits base).drop (width base x.millis + 1) =
      if x.counter = 0 then [] else ofNat base x.counter := by
    rw [hsplit, width, List.drop_append]
    simp
  constructor
  · rw [hsplit, width, List.take_left, value_ofNat]
  · rw [hsplit, width]
    simp
  · rw [htail]
    split
    · rename_i hc
      rw [hc, value]
    · exact value_ofNat
  · rw [htail]
    split
    · rename_i hc
      simp [hc]
    · rename_i hc
      simp [hc, ofNat_ne_nil]

theorem Mark.eq_of_spelledBy (hx : x.SpelledBy base k ds) (hy : y.SpelledBy base k ds) : x = y := by
  refine Mark.ext (hx.millis.symm.trans hy.millis) ?_ (hx.counter.symm.trans hy.counter)
  exact Option.some.inj (hx.worker.symm.trans hy.worker)

namespace Issuer

variable {g h : Issuer} {source words : Nat → UInt64} {b c : Beat}

/-- Whatever the random words, the text of a beat spells its fields. -/
theorem spelledBy_minted (g : Issuer) (source : Nat → UInt64) (b : Beat) :
    (g.mark b).SpelledBy (1 <<< g.alphabet.dataBits) (g.alphabet.symbolCount b.millis)
      (digitsOf g.alphabet (g.minted source b).text) := by
  rw [digitsOf_minted, ← Alphabet.width_eq_symbolCount]
  exact Mark.spelledBy_digits (x := g.mark b) g.worker_lt

theorem mark_eq_of_text (ha : g.alphabet = h.alphabet)
    (hcount : g.alphabet.symbolCount b.millis = g.alphabet.symbolCount c.millis)
    (htext : (g.minted source b).text = (h.minted words c).text) : g.mark b = h.mark c := by
  have hspelled := spelledBy_minted h words c
  rw [← ha, ← hcount, ← htext] at hspelled
  exact Mark.eq_of_spelledBy (spelledBy_minted g source b) hspelled

end Issuer

/-- The first millisecond from which on all that can be written take equally many symbols. -/
def lateMillis (a : Alphabet) : Nat := if a.size = 64 then 2 ^ 35 else 2 ^ 36

theorem symbolCount_of_late {m : Nat} (hlate : lateMillis a ≤ m) (hle : m ≤ maxMillis) :
    a.symbolCount m = if a.size = 64 then 8 else 10 := by
  have hsize : m.size ≤ 40 := Nat.size_le.mpr (Nat.lt_succ_of_le hle)
  rw [Alphabet.symbolCount, Nat.ceilDiv_eq_add_pred_div]
  rcases a.size_eq with h | h
  · have hmore : 36 < m.size := Nat.lt_size.mpr (by simpa [lateMillis, h] using hlate)
    have hbits : a.dataBits = 4 := by simp [Alphabet.dataBits, Alphabet.bits, h]
    rw [hbits, if_neg (by omega)]
    omega
  · have hmore : 35 < m.size := Nat.lt_size.mpr (by simpa [lateMillis, h] using hlate)
    have hbits : a.dataBits = 5 := by simp [Alphabet.dataBits, Alphabet.bits, h]
    rw [hbits, if_pos h]
    omega

variable {loads : List Workload} {words : Nat → Nat → UInt64}

/-- Late readings leave no room for an overlap. -/
theorem not_overlaps_of_late
    (hlate : ∀ l ∈ loads, ∀ r ∈ l.requests, ∀ m, r.reading = .millis m → lateMillis a ≤ m)
    (hx : x ∈ marksOf loads) (hy : y ∈ marksOf loads) : ¬ x.Overlaps (1 <<< a.dataBits) y := by
  have hcount : ∀ z ∈ marksOf loads, a.symbolCount z.millis = if a.size = 64 then 8 else 10 := by
    intro z hz
    obtain ⟨l, hd, hz⟩ := List.mem_flatMap.mp hz
    obtain ⟨c, hc, rfl⟩ := List.mem_map.mp hz
    obtain ⟨hle, r, hr, hreading⟩ := Station.mem_beats_run hc
    exact symbolCount_of_late (hlate l hd r hr c.millis hreading) hle
  rintro ⟨hlt, _⟩
  rw [a.width_eq_symbolCount, a.width_eq_symbolCount, hcount x hx, hcount y hy] at hlt
  exact absurd hlt (Nat.lt_irrefl _)

/-- Over every alphabet and whatever the random words: a text is spelled in symbols of the alphabet,
and their data bits give back milliseconds, worker and counter, the milliseconds from as many
symbols as they take. So texts whose milliseconds take equally many symbols differ unless all fields
agree. Workers that are told apart, and whose clocks are late and do not move back, never write a
text twice, unless one of them issues more identifiers in a millisecond than a counter has values.
-/
theorem fields_legible :
    (∀ w g, Issuer.ofWorker w a = .ok g → ∀ source b,
      (∀ c ∈ Text.bytes (g.minted source b).text, c ∈ a.symbols) ∧
      Mark.SpelledBy (1 <<< a.dataBits) (a.symbolCount b.millis)
        (digitsOf a (g.minted source b).text) ⟨b.millis, w, b.counter.toNat⟩) ∧
    (∀ v w g h, Issuer.ofWorker v a = .ok g → Issuer.ofWorker w a = .ok h → ∀ source words b c,
      a.symbolCount b.millis = a.symbolCount c.millis →
      (g.minted source b).text = (h.minted words c).text →
      b.millis = c.millis ∧ v = w ∧ b.counter = c.counter) ∧
    (∀ loads : List Workload, (∀ l ∈ loads, l.issuer.alphabet = a) →
      (loads.map fun l => l.issuer.worker).Nodup → (∀ l ∈ loads, Steady l.requests) →
      (∀ l ∈ loads, ∀ r ∈ l.requests, ∀ m, r.reading = .millis m → lateMillis a ≤ m) →
      ((∀ words, (textsOf loads words).Nodup) ↔
        ∀ l ∈ loads, ∀ m, l.marks.countP (·.millis = m) ≤ UInt64.size)) := by
  refine ⟨?_, ?_, ?_⟩
  · intro w g hg source b
    obtain ⟨rfl, rfl⟩ := Issuer.ofWorker_eq_ok hg
    exact ⟨Issuer.bytes_minted, Issuer.spelledBy_minted g source b⟩
  · intro v w g h hg hh source words b c hcount htext
    obtain ⟨rfl, rfl⟩ := Issuer.ofWorker_eq_ok hg
    obtain ⟨rfl, ha⟩ := Issuer.ofWorker_eq_ok hh
    have hmark := Issuer.mark_eq_of_text ha.symm hcount htext
    simp only [Issuer.mark, Mark.mk.injEq, UInt64.toNat_inj] at hmark
    exact hmark
  · intro loads ha hw hs hlate
    have hcounts : (marksOf loads).Nodup ↔
        ∀ l ∈ loads, ∀ m, l.marks.countP (·.millis = m) ≤ UInt64.size := by
      rw [marksOf_nodup_iff hw]
      exact forall₂_congr fun l hd => Workload.marks_nodup_iff (hs l hd)
    rw [← hcounts]
    constructor
    · intro h
      exact (not_overlaps_of_nodup ha (h fun _ _ => 0)).1
    · intro hmarks
      exact textsOf_nodup ha hmarks fun x hx y hy => not_overlaps_of_late hlate hx hy

/-- Two workers at late readings that would overlap were they small. -/
def latePair : List Workload :=
  [⟨⟨1, .shuffled .standard 2, by decide +kernel⟩,
      [⟨.millis 34359738373, false⟩, ⟨.millis 34359738373, true⟩, ⟨.millis 34359738405, false⟩]⟩,
    ⟨⟨2, .shuffled .standard 2, by decide +kernel⟩, [⟨.millis 34359738373, false⟩]⟩]

theorem latePair_legible :
    (∀ l ∈ latePair, l.issuer.alphabet = .shuffled .standard 2) ∧
    (latePair.map fun l => l.issuer.worker).Nodup ∧ (∀ l ∈ latePair, Steady l.requests) ∧
    (∀ l ∈ latePair, ∀ r ∈ l.requests, ∀ m, r.reading = .millis m →
      lateMillis (.shuffled .standard 2) ≤ m) ∧
    (marksOf latePair).length = 4 ∧ (∀ words, (textsOf latePair words).Nodup) ∧
    ∃ g, Issuer.ofWorker 31 (.shuffled .standard 2) = .ok g ∧ ∀ source words,
      Mark.SpelledBy (1 <<< (Alphabet.shuffled .standard 2).dataBits)
        ((Alphabet.shuffled .standard 2).symbolCount 5)
        (digitsOf (.shuffled .standard 2) (g.minted source ⟨5, 1⟩).text) ⟨5, 31, 1⟩ ∧
      (g.minted source ⟨5, 1⟩).text ≠ (g.minted words ⟨6, 1⟩).text := by
  have ha : ∀ l ∈ latePair, l.issuer.alphabet = .shuffled .standard 2 := by simp [latePair]
  have hw : (latePair.map fun l => l.issuer.worker).Nodup := by decide
  have hs : ∀ l ∈ latePair, Steady l.requests := by simp [latePair, Steady]
  have hlate : ∀ l ∈ latePair, ∀ r ∈ l.requests, ∀ m, r.reading = .millis m →
      lateMillis (.shuffled .standard 2) ≤ m := by
    have hfirst : lateMillis (.shuffled .standard 2) = 34359738368 := by decide +kernel
    simp [latePair, hfirst]
  obtain ⟨hspelled, hsame, hloads⟩ := fields_legible (a := .shuffled .standard 2)
  have hg : Issuer.ofWorker 31 (.shuffled .standard 2) =
      .ok ⟨31, .shuffled .standard 2, by decide +kernel⟩ := dif_pos _
  refine ⟨ha, hw, hs, hlate, by decide, (hloads latePair ha hw hs hlate).mpr ?_,
    _, hg, fun source words => ⟨(hspelled _ _ hg source ⟨5, 1⟩).2, ?_⟩⟩
  · intro l hd m
    have hlen : ∀ l ∈ latePair, l.requests.length ≤ UInt64.size := by decide
    exact (List.countP_le_length.trans l.length_marks_le).trans (hlen l hd)
  · intro htext
    have hfields := hsame _ _ _ _ hg hg source words ⟨5, 1⟩ ⟨6, 1⟩ (by decide +kernel) htext
    exact absurd hfields.1 (by decide)

end ShortId

end IdMint
