import IdMint.Proofs.ShortId.Succession

/-! Workers that write over one alphabet. Filler aside, a text comes twice just when one mark
overlaps another. -/
namespace IdMint.ShortId

variable {a : Alphabet} {words : Nat → Nat → UInt64}

/-- An issuer and the requests that it serves. -/
structure Workload where
  issuer : Issuer
  requests : List Request

variable {l : Workload} {loads : List Workload} {x y : Mark}

namespace Workload

def turns (l : Workload) (source : Nat → UInt64) : List Turn :=
  (Station.ofIssuer l.issuer).run source l.requests

/-- The fields of what is issued, in order. Random words have no say in them. -/
def marks (l : Workload) : List Mark := (beats (l.turns fun _ => 0)).map l.issuer.mark

theorem beats_turns (source : Nat → UInt64) : beats (l.turns source) = beats (l.turns fun _ => 0) :=
  Station.beats_run_eq rfl

theorem mem_marks (h : x ∈ l.marks) : x.worker = l.issuer.worker := by
  obtain ⟨b, _, rfl⟩ := List.mem_map.mp h
  rfl

theorem length_marks_le (l : Workload) : l.marks.length ≤ l.requests.length := by
  rw [marks, List.length_map, ← Station.length_run (Station.ofIssuer l.issuer) (fun _ => 0)]
  exact length_beats_le _

/-- No mark comes twice just when no counter comes round. -/
theorem marks_nodup_iff (hs : Steady l.requests) :
    l.marks.Nodup ↔ ∀ t, l.marks.countP (·.millis = t) ≤ UInt64.size := by
  have hmark : Function.Injective l.issuer.mark := by
    rintro ⟨m, i⟩ ⟨n, j⟩ heq
    simp only [Issuer.mark, Mark.mk.injEq, UInt64.toNat_inj, true_and] at heq
    rw [heq.1, heq.2]
  have hsucc : Succession none (beats (l.turns fun _ => 0)) :=
    Station.beats_succession (s := Station.ofIssuer l.issuer) hs fun _ _ _ _ _ hb =>
      absurd hb (Option.not_mem_none _)
  simp only [marks, List.nodup_map_iff hmark, List.countP_map]
  exact succession_nodup_iff hsucc

theorem marks_nodup (hs : Steady l.requests) (hlen : l.requests.length < UInt64.size) :
    l.marks.Nodup := by
  rw [marks_nodup_iff hs]
  exact fun t => (List.countP_le_length.trans l.length_marks_le).trans hlen.le

end Workload

/-- All texts, where `words w` are the random words of worker `w`. -/
def textsOf (loads : List Workload) (words : Nat → Nat → UInt64) : List String :=
  loads.flatMap fun l => texts (l.turns (words l.issuer.worker))

def marksOf (loads : List Workload) : List Mark := loads.flatMap Workload.marks

theorem worker_lt_of_mem (ha : ∀ l ∈ loads, l.issuer.alphabet = a) (hx : x ∈ marksOf loads) :
    x.worker < 1 <<< a.dataBits := by
  obtain ⟨l, hd, hmem⟩ := List.mem_flatMap.mp hx
  rw [Workload.mem_marks hmem, ← ha l hd]
  exact l.issuer.worker_lt

/-- Whatever the random words, the texts carry the digits of the marks. -/
theorem map_digitsOf_textsOf (ha : ∀ l ∈ loads, l.issuer.alphabet = a) :
    (textsOf loads words).map (digitsOf a) =
      (marksOf loads).map (Mark.digits (1 <<< a.dataBits)) := by
  rw [textsOf, marksOf, List.map_flatMap, List.map_flatMap]
  apply List.flatMap_congr
  intro l hd
  have hdigits := Station.map_digitsOf_texts (Station.ofIssuer l.issuer) (words l.issuer.worker)
    l.requests
  rw [← ha l hd, Workload.marks, List.map_map, ← Workload.beats_turns (words l.issuer.worker)]
  exact hdigits

/-- Where all random words are zero, the digits of the marks make the texts. -/
theorem textsOf_zero (ha : ∀ l ∈ loads, l.issuer.alphabet = a) :
    (textsOf loads fun _ _ => 0) = (marksOf loads).map fun x =>
      Text.ofAscii (dress a (fun _ => 0) .empty (x.digits (1 <<< a.dataBits))).1 := by
  rw [textsOf, marksOf, List.map_flatMap]
  apply List.flatMap_congr
  intro l hd
  have htexts := Station.texts_run_const (Station.ofIssuer l.issuer) 0 l.requests
  rw [Workload.marks, List.map_map, ← ha l hd, Workload.turns, htexts]
  apply List.map_congr_left
  intro b _
  exact Issuer.text_minted

theorem marksOf_nodup_iff (hw : (loads.map fun l => l.issuer.worker).Nodup) :
    (marksOf loads).Nodup ↔ ∀ l ∈ loads, l.marks.Nodup := by
  rw [marksOf, List.nodup_flatMap]
  refine and_iff_left ((List.pairwise_map.mp hw).imp ?_)
  intro l e hne x hd he
  exact hne ((Workload.mem_marks hd).symm.trans (Workload.mem_marks he))

theorem marksOf_nodup (hw : (loads.map fun l => l.issuer.worker).Nodup)
    (hs : ∀ l ∈ loads, Steady l.requests)
    (hlen : ∀ l ∈ loads, l.requests.length < UInt64.size) : (marksOf loads).Nodup := by
  rw [marksOf_nodup_iff hw]
  exact fun l hd => Workload.marks_nodup (hs l hd) (hlen l hd)

/-- Whatever the random words, texts that differ in no digit belong to one mark or to two that
overlap. -/
theorem textsOf_nodup (ha : ∀ l ∈ loads, l.issuer.alphabet = a) (hmarks : (marksOf loads).Nodup)
    (hno : ∀ x ∈ marksOf loads, ∀ y ∈ marksOf loads, ¬ x.Overlaps (1 <<< a.dataBits) y)
    (words : Nat → Nat → UInt64) : (textsOf loads words).Nodup := by
  have hdigits : ((marksOf loads).map (Mark.digits (1 <<< a.dataBits))).Nodup := by
    apply hmarks.map_on
    intro x hx y hy heq
    rcases (Mark.digits_eq_iff a.two_le_shiftLeft_dataBits (worker_lt_of_mem ha hx)
      (worker_lt_of_mem ha hy)).mp heq with h | h | h
    · exact h
    · exact absurd h (hno x hx y hy)
    · exact absurd h (hno y hy x hx)
  rw [← map_digitsOf_textsOf ha] at hdigits
  exact hdigits.of_map

/-- Zero is a filler that shows every overlap. -/
theorem not_overlaps_of_nodup (ha : ∀ l ∈ loads, l.issuer.alphabet = a)
    (h : (textsOf loads fun _ _ => 0).Nodup) :
    (marksOf loads).Nodup ∧
      ∀ x ∈ marksOf loads, ∀ y ∈ marksOf loads, ¬ x.Overlaps (1 <<< a.dataBits) y := by
  rw [textsOf_zero ha] at h
  constructor
  · exact h.of_map
  · intro x hx y hy hover
    have hdigits := Mark.digits_eq_of_overlaps a.two_le_shiftLeft_dataBits
      (worker_lt_of_mem ha hx) (worker_lt_of_mem ha hy) hover
    obtain rfl : x = y := List.inj_on_of_nodup_map h hx hy (by simp only [hdigits])
    exact absurd hover.1 (Nat.lt_irrefl _)

/-- Of what is issued by workers of one alphabet whose clocks do not move back, no text comes twice,
whatever the filler, exactly when no mark comes twice and none overlaps another. No mark comes twice
unless an issuer has so many requests that a counter comes round. -/
theorem textsOf_nodup_iff (ha : ∀ l ∈ loads, l.issuer.alphabet = a)
    (hw : (loads.map fun l => l.issuer.worker).Nodup) (hs : ∀ l ∈ loads, Steady l.requests) :
    ((∀ words, (textsOf loads words).Nodup) ↔
      (marksOf loads).Nodup ∧
        ∀ x ∈ marksOf loads, ∀ y ∈ marksOf loads, ¬ x.Overlaps (1 <<< a.dataBits) y) ∧
    ((∀ l ∈ loads, l.requests.length < UInt64.size) → (marksOf loads).Nodup) := by
  refine ⟨⟨?_, ?_⟩, marksOf_nodup hw hs⟩
  · intro h
    exact not_overlaps_of_nodup ha (h fun _ _ => 0)
  · rintro ⟨hmarks, hno⟩
    exact textsOf_nodup ha hmarks hno

/-- Two workers, of which one asks twice at one reading. -/
def pair : List Workload :=
  [⟨⟨1, .shuffled .standard 1, by decide +kernel⟩,
      [⟨.millis 5, false⟩, ⟨.millis 5, false⟩, ⟨.millis 6, true⟩]⟩,
    ⟨⟨2, .shuffled .standard 1, by decide +kernel⟩, [⟨.millis 5, false⟩, ⟨.millis 37, false⟩]⟩]

theorem pair_texts_nodup :
    (∀ l ∈ pair, l.issuer.alphabet = .shuffled .standard 1) ∧
    (pair.map fun l => l.issuer.worker).Nodup ∧ (∀ l ∈ pair, Steady l.requests) ∧
    (marksOf pair).length = 5 ∧ ∀ words, (textsOf pair words).Nodup := by
  have ha : ∀ l ∈ pair, l.issuer.alphabet = .shuffled .standard 1 := by simp [pair]
  have hw : (pair.map fun l => l.issuer.worker).Nodup := by decide
  have hs : ∀ l ∈ pair, Steady l.requests := by simp [pair, Steady]
  refine ⟨ha, hw, hs, by decide, ?_⟩
  exact (textsOf_nodup_iff ha hw hs).1.mpr (by decide +kernel)

/-- A worker whose counter at one reading is read as part of a later reading. -/
def early : Workload :=
  ⟨⟨1, .shuffled .standard 1, by decide +kernel⟩,
    [⟨.millis 5, false⟩, ⟨.millis 5, false⟩, ⟨.millis 37, false⟩]⟩

theorem early_texts_repeat :
    Steady early.requests ∧ textsOf [early] (fun _ _ => 0) = ["7z", "7zz", "7zz"] ∧
    ¬ (textsOf [early] fun _ _ => 0).Nodup := by
  have hs : Steady early.requests := by simp [early, Steady]
  have htexts : textsOf [early] (fun _ _ => 0) = ["7z", "7zz", "7zz"] := by decide +kernel
  refine ⟨hs, htexts, ?_⟩
  rw [htexts]
  decide

end IdMint.ShortId
