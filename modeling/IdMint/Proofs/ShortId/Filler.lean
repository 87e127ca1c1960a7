import IdMint.Proofs.ShortId.History

/-! What random words have a say in. Each symbol takes the next byte of the words and shows one bit
of it above its digit, wherever one field ends and the next one starts. So what an identifier says,
and how many words it takes, is settled before any word is drawn. -/
namespace IdMint.ShortId

variable {a : Alphabet} {source other : Nat → UInt64} {s t : Station} {r : Request}
  {rs : List Request} {ds : List Nat} {d : Nat}

namespace Filler

/-- Byte `j` of the words of a source, of which each gives eight, low byte first. -/
def byteOf (source : Nat → UInt64) (j : Nat) : UInt8 :=
  UInt8.ofNat ((source (j / 8)).toNat >>> (8 * (j % 8)))

def after (source : Nat → UInt64) (k : Nat) : Filler :=
  ⟨if k % 8 = 0 then [] else (bytesOf (source (k / 8))).drop (k % 8), (k + 7) / 8⟩

/-- How many words have the bytes that `n` symbols take. -/
def wordsFor (n : Nat) : Nat := n ⌈/⌉ 8

theorem length_bytesOf (word : UInt64) : (bytesOf word).length = 8 := by simp [bytesOf]

theorem drop_bytesOf {i : Nat} (word : UInt64) (h : i < 8) : (bytesOf word).drop i =
    UInt8.ofNat (word.toNat >>> (8 * i)) :: (bytesOf word).drop (i + 1) := by
  have hi : i < (bytesOf word).length := by rwa [length_bytesOf]
  rw [List.drop_eq_getElem_cons hi]
  simp [bytesOf]

/-- A byte used up leaves the bytes behind it in its word, of which there may be none. -/
theorem after_succ (source : Nat → UInt64) (k : Nat) : after source (k + 1) =
    ⟨(bytesOf (source (k / 8))).drop (k % 8 + 1), k / 8 + 1⟩ := by
  have hcount : (k + 1 + 7) / 8 = k / 8 + 1 := by omega
  by_cases hlast : (k + 1) % 8 = 0
  · have hseven : k % 8 + 1 = 8 := by omega
    simp only [after, hlast, if_true, hcount, hseven]
    rw [List.drop_eq_nil_of_le (length_bytesOf _).le]
  · have hsame : (k + 1) / 8 = k / 8 := by omega
    have hsucc : (k + 1) % 8 = k % 8 + 1 := by omega
    simp only [after, hsame, hsucc, hcount, Nat.succ_ne_zero, if_false]

/-- The next byte is the next one of the source, whether a word has to be drawn for it or not. -/
theorem next_after (source : Nat → UInt64) (k : Nat) :
    (after source k).next source = (byteOf source k, after source (k + 1)) := by
  have hdrop := drop_bytesOf (source (k / 8)) (Nat.mod_lt k (by decide : 0 < 8))
  rw [after_succ]
  by_cases hk : k % 8 = 0
  · have hcount : (k + 7) / 8 = k / 8 := by omega
    rw [hk, List.drop_zero] at hdrop
    rw [after, if_pos hk, hcount, next, hk, byteOf, hk, hdrop]
    rfl
  · have hcount : (k + 7) / 8 = k / 8 + 1 := by omega
    rw [after, if_neg hk, hcount, hdrop, next, byteOf]

theorem empty_eq (source : Nat → UInt64) : empty = after source 0 := rfl

/-- A bit of a byte is a bit of the word that it belongs to. -/
theorem testBit_byteOf {i : Nat} (h : i < 8) (source : Nat → UInt64) (j : Nat) :
    (byteOf source j).toNat.testBit i = (source (j / 8)).toNat.testBit (8 * (j % 8) + i) := by
  rw [byteOf, UInt8.toNat_ofNat', Nat.testBit_mod_two_pow, Nat.testBit_shiftRight]
  simp [h]

end Filler

/-- Digits are dressed in the bytes of the source, one byte each. -/
theorem dress_after (ds : List Nat) (k : Nat) : dress a source (Filler.after source k) ds =
    (ds.mapIdx fun j d => packedSymbol a d (Filler.byteOf source (k + j)),
      Filler.after source (k + ds.length)) := by
  induction ds generalizing k with
  | nil => rfl
  | cons d ds ih =>
    simp only [dress, Filler.next_after, ih, List.mapIdx_cons, Nat.add_zero, List.length_cons,
      Nat.add_assoc, Nat.add_comm 1]

/-- Each symbol of a text shows, above its digit, a bit of its own byte of the source. -/
def Shows (a : Alphabet) (source : Nat → UInt64) (text : String) : Prop :=
  ∀ j c, (Text.bytes text)[j]? = some c → ∃ i, a.index? c = some i ∧
    i.testBit a.dataBits = (source (j / 8)).toNat.testBit (8 * (j % 8) + a.dataBits)

theorem testBit_index (hd : d < 1 <<< a.dataBits) (source : Nat → UInt64) (j : Nat) :
    ∃ i, a.index? (packedSymbol a d (Filler.byteOf source j)) = some i ∧
      i.testBit a.dataBits = (source (j / 8)).toNat.testBit (8 * (j % 8) + a.dataBits) := by
  have hbits : a.dataBits < 8 := by
    rcases a.size_eq with h | h <;> simp [Alphabet.dataBits, Alphabet.bits, h]
  refine ⟨_, index?_packedSymbol hd _, ?_⟩
  rw [Nat.one_shiftLeft] at hd ⊢
  rw [Nat.testBit_two_pow_mul_add _ hd, if_neg (Nat.lt_irrefl _), Nat.sub_self,
    ← Filler.testBit_byteOf hbits]
  simp

namespace Issuer

variable {g : Issuer} {b : Beat}

theorem bytes_text_minted : Text.bytes (g.minted source b).text =
    ((g.mark b).digits (1 <<< g.alphabet.dataBits)).mapIdx fun j d =>
      packedSymbol g.alphabet d (Filler.byteOf source j) := by
  rw [text_minted, Text.bytes_ofAscii graphic_dress, Filler.empty_eq source, dress_after]
  simp only [Nat.zero_add]

theorem length_text_minted : (g.minted source b).text.length =
    ((g.mark b).digits (1 <<< g.alphabet.dataBits)).length := by
  have hgraphic : ∀ c ∈ Text.bytes (g.minted source b).text, Text.isGraphic c = true :=
    fun c hc => g.alphabet.graphic c (bytes_minted c hc)
  rw [← Text.length_bytes_of_graphic hgraphic, bytes_text_minted, List.length_mapIdx]

/-- An identifier takes a word for every eight symbols, and one more if there are symbols left. -/
theorem drawn_minted :
    (g.minted source b).drawn = Filler.wordsFor (g.minted source b).text.length := by
  rw [length_text_minted, minted, packed_eq_dress, Filler.empty_eq source, dress_after,
    Nat.zero_add, Filler.wordsFor, Nat.ceilDiv_eq_add_pred_div]
  rfl

theorem shows_minted : Shows g.alphabet source (g.minted source b).text := by
  intro j c hc
  rw [bytes_text_minted, List.getElem?_mapIdx] at hc
  obtain ⟨d, hd, rfl⟩ := Option.map_eq_some_iff.mp hc
  exact testBit_index (lt_of_mem_digits d (List.mem_of_getElem? hd)) source j

end Issuer

/-- Texts in symbols of an alphabet that are equally long and differ in nothing but the top bits of
their indices. -/
structure AlikeBut (a : Alphabet) (text other : String) : Prop where
  spelled : ∀ c ∈ Text.bytes text ++ Text.bytes other, c ∈ a.symbols
  length : text.length = other.length
  digits : digitsOf a text = digitsOf a other

/-- Calls that end in the same way, and if they issue, with texts that are alike. -/
inductive Matching (a : Alphabet) : Outcome String → Outcome String → Prop where
  | issued {text other : String} (h : AlikeBut a text other) :
      Matching a (.issued text) (.issued other)
  | refused (cause : Refusal) : Matching a (.refused cause) (.refused cause)
  | crashed (words : String) : Matching a (.crashed words) (.crashed words)

/-- Turns that leave the same cell and the same events behind, with outcomes that match. -/
structure Turn.Matching (a : Alphabet) (t u : Turn) : Prop where
  outcome : ShortId.Matching a t.outcome u.outcome
  cell : t.station.cell = u.station.cell
  events : t.events = u.events

theorem Issuer.alikeBut_minted (g : Issuer) (source other : Nat → UInt64) (b : Beat) :
    AlikeBut g.alphabet (g.minted source b).text (g.minted other b).text where
  spelled := by
    intro c hc
    rcases List.mem_append.mp hc with hc | hc
    · exact bytes_minted c hc
    · exact bytes_minted c hc
  length := length_text_minted.trans length_text_minted.symm
  digits := digitsOf_minted.trans digitsOf_minted.symm

namespace Station

/-- Stations with one issuer and one cell take a turn alike, whatever they draw. -/
theorem turn_matching (hissuer : s.issuer = t.issuer) (hcell : s.cell = t.cell) (r : Request) :
    (s.turn source r).Matching s.issuer.alphabet (t.turn other r) := by
  constructor
  · rw [turn_outcome, turn_outcome, ← hcell, ← hissuer]
    cases (s.cell.call r.reading advance).outcome with
    | issued b =>
      cases r.demanded <;> exact .issued (s.issuer.alikeBut_minted _ _ b)
    | refused cause =>
      cases r.demanded
      · exact .refused cause
      · exact .crashed _
    | crashed words =>
      cases r.demanded <;> exact .crashed words
  · simp [hcell]
  · simp [hcell]

theorem run_matching (hissuer : s.issuer = t.issuer) (hcell : s.cell = t.cell) (rs : List Request) :
    List.Forall₂ (Turn.Matching s.issuer.alphabet) (s.run source rs) (t.run other rs) := by
  induction rs generalizing s t with
  | nil => exact .nil
  | cons r rs ih =>
    have hturn : (s.turn source r).Matching s.issuer.alphabet (t.turn other r) :=
      turn_matching hissuer hcell r
    exact .cons hturn (ih (s := (s.turn source r).station) hissuer hturn.cell)

/-- A turn draws words for the text that it issues and for nothing else. -/
theorem turn_drawn : (s.turn source r).station.drawn =
    s.drawn +
      ((s.turn source r).outcome.value?.map fun text => Filler.wordsFor text.length).getD 0 := by
  have hdrawn : (s.turn source r).station.drawn =
      s.drawn + drawnBy (s.issuer.issue (fun k => source (s.drawn + k)) s.cell r.reading).outcome :=
    rfl
  rw [hdrawn, turn_value?, issue_eq, Call.outcome_map]
  cases (s.cell.call r.reading advance).outcome with
  | issued b => exact congrArg (s.drawn + ·) Issuer.drawn_minted
  | refused cause => rfl
  | crashed words => rfl

theorem turn_shows {text : String} (h : (s.turn source r).outcome.value? = some text) :
    Shows s.issuer.alphabet (fun k => source (s.drawn + k)) text := by
  rw [turn_value?] at h
  obtain ⟨b, _, rfl⟩ := Option.map_eq_some_iff.mp h
  exact Issuer.shows_minted

def after (s : Station) (past : List Turn) : Station := (past.getLast?.map Turn.station).getD s

theorem after_cons (s : Station) (t : Turn) (past : List Turn) :
    s.after (t :: past) = t.station.after past := by
  cases past with
  | nil => rfl
  | cons u past => rw [after, after, List.getLast?_cons_cons, List.getLast?_cons]; rfl

/-- A turn of a run is one of the station that the turns before it leave behind. -/
theorem turn_of_run {past rest : List Turn} {u : Turn} (h : s.run source rs = past ++ u :: rest) :
    (s.after past).issuer = s.issuer ∧ ∃ r, u = (s.after past).turn source r := by
  induction past generalizing s rs with
  | nil =>
    cases rs with
    | nil => cases h
    | cons r rs => exact ⟨rfl, r, (List.cons.inj h).1.symm⟩
  | cons t past ih =>
    cases rs with
    | nil => cases h
    | cons r rs =>
      obtain ⟨rfl, hrest⟩ := List.cons.inj h
      rw [after_cons]
      exact ih hrest

/-- Whatever the random words, a run takes the same course: calls end in the same way, and texts are
equally long and carry the same data bits. A turn that issues a text draws just the words whose
bytes the text needs, one byte for each symbol, and each symbol shows one bit of its own byte. A
turn that issues nothing draws nothing. -/
theorem filler_confined (s : Station) (source other : Nat → UInt64) (rs : List Request) :
    List.Forall₂ (Turn.Matching s.issuer.alphabet) (s.run source rs) (s.run other rs) ∧
    ∀ past u rest, s.run source rs = past ++ u :: rest →
      (u.outcome.value? = none → u.station.drawn = (s.after past).drawn) ∧
      ∀ text, u.outcome.value? = some text →
        u.station.drawn = (s.after past).drawn + Filler.wordsFor text.length ∧
        Shows s.issuer.alphabet (fun k => source ((s.after past).drawn + k)) text := by
  refine ⟨run_matching rfl rfl rs, ?_⟩
  intro past u rest h
  obtain ⟨hissuer, r, rfl⟩ := turn_of_run h
  constructor
  · intro hnone
    rw [turn_drawn, hnone]
    rfl
  · intro text htext
    refine ⟨?_, ?_⟩
    · rw [turn_drawn, htext]
      rfl
    · rw [← hissuer]
      exact turn_shows htext

/-- A station whose texts need two words at the reading of `lateRequest`. -/
def lateStation : Station := .ofIssuer ⟨5, .shuffled .standard 4, by decide +kernel⟩

/-- A call a year after the epoch. -/
def lateRequest : Request := ⟨.millis 34359738373, false⟩

theorem lateStation_words :
    List.Forall₂ (Turn.Matching lateStation.issuer.alphabet)
      (lateStation.run UInt64.ofNat [lateRequest, lateRequest])
      (lateStation.run (fun _ => 0) [lateRequest, lateRequest]) ∧
    ∃ t u, lateStation.run UInt64.ofNat [lateRequest, lateRequest] = [t] ++ [u] ∧
      u.outcome.value? = some "jnnnnnn3j3" ∧ t.station.drawn = 2 ∧ u.station.drawn = 4 ∧
      Shows lateStation.issuer.alphabet (fun k => UInt64.ofNat (2 + k)) "jnnnnnn3j3" := by
  obtain ⟨hmatching, hturns⟩ :=
    filler_confined lateStation UInt64.ofNat (fun _ => 0) [lateRequest, lateRequest]
  let first := lateStation.turn UInt64.ofNat lateRequest
  have hfirst : first.station.drawn = 2 := by decide +kernel
  have htext : (first.station.turn UInt64.ofNat lateRequest).outcome.value? =
      some "jnnnnnn3j3" := by
    decide +kernel
  obtain ⟨hdrawn, hshows⟩ := (hturns [first] _ [] rfl).2 _ htext
  have hafter : (lateStation.after [first]).drawn = 2 := hfirst
  rw [hafter] at hdrawn hshows
  exact ⟨hmatching, first, _, rfl, htext, hfirst, hdrawn, hshows⟩

end Station

end IdMint.ShortId
