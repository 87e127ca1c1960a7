import IdMint.CommandLine.Program
import IdMint.Proofs.Digits
import IdMint.Proofs.Tray
import Mathlib.Data.List.InsertIdx
import Mathlib.Data.List.Nodup

/-! What the picks of a shuffle do. Each is made with a reduced state, so its product is a word and
its place is in the pool. The order is up to the places alone, so a text and the alphabet that it
spells come out in one order. -/
namespace IdMint.Shuffle

variable {α β : Type} {pool : List α} {n : Nat} {seed : UInt64} {d : UInt64 × Nat}

/-- The states that the picks from a pool of `n` elements are made with, and how many elements the
pool holds at each. -/
def draws : Nat → UInt64 → List (UInt64 × Nat)
  | n + 2, seed => (next seed, n + 2) :: draws (n + 1) (next seed)
  | _, _ => []

/-- The places that are picked from a pool of `n` elements. -/
def places (n : Nat) (seed : UInt64) : List Nat := (draws n seed).map fun d => pick d.1 d.2

/-- Takes elements out of a pool by their places, one after the other, and then all that is left. A
place outside the pool spoils it. -/
def takeOut : List α → List Nat → Option (List α)
  | pool, [] => some pool
  | pool, i :: is => (pool[i]?).bind fun x => (takeOut (pool.eraseIdx i) is).map (x :: ·)

theorem takeOut_cons {i : Nat} (h : i < pool.length) (is : List Nat) :
    takeOut pool (i :: is) = (takeOut (pool.eraseIdx i) is).map (pool[i] :: ·) := by
  rw [takeOut, List.getElem?_eq_getElem h, Option.bind_some]

/-- A state that a pick is made with has been reduced, and the pool is not empty then. -/
theorem mem_draws (h : d ∈ draws n seed) : d.1.toNat < 233280 ∧ 0 < d.2 ∧ d.2 ≤ n := by
  induction n, seed using draws.induct with
  | case1 n seed ih =>
    rcases List.mem_cons.mp h with rfl | h
    · exact ⟨next_lt seed, by omega, le_rfl⟩
    · obtain ⟨hstate, hpos, hle⟩ := ih h
      exact ⟨hstate, hpos, by omega⟩
  | case2 n seed hn =>
    rw [draws] at h
    · cases h
    · exact hn

/-- One pick for each element but the last. -/
theorem length_draws (n : Nat) (seed : UInt64) : (draws n seed).length = n - 1 := by
  induction n, seed using draws.induct with
  | case1 n seed ih =>
    rw [draws, List.length_cons, ih]
    omega
  | case2 n seed hn =>
    rw [draws]
    · rcases n with _ | _ | n
      · rfl
      · rfl
      · exact absurd rfl (hn n)
    · exact hn

theorem pick_eq (h : d.1.toNat * d.2 < UInt64.size) : pick d.1 d.2 = d.1.toNat * d.2 / 233280 := by
  have hmodulus : modulus.toNat = 233280 := rfl
  rw [pick, UInt64.toNat_div, UInt64.toNat_mul, UInt64.toNat_ofNat', Nat.mul_mod_mod, hmodulus]
  exact congrArg (· / 233280) (Nat.mod_eq_of_lt h)

/-- While a pool is smaller than two to the 46th, no product of a pick wraps. -/
theorem product_lt (h : d ∈ draws n seed) (hn : n < 2 ^ 46) : d.1.toNat * d.2 < UInt64.size := by
  obtain ⟨hstate, _, hle⟩ := mem_draws h
  calc d.1.toNat * d.2 ≤ 233280 * 2 ^ 46 := Nat.mul_le_mul hstate.le (by omega)
    _ < UInt64.size := by decide

theorem pick_lt (h : d ∈ draws n seed) : pick d.1 d.2 < d.2 := by
  induction n, seed using draws.induct with
  | case1 n seed ih =>
    rcases List.mem_cons.mp h with rfl | h
    · exact pick_next_lt (by omega)
    · exact ih h
  | case2 n seed hn =>
    rw [draws] at h
    · cases h
    · exact hn

/-- A shuffle takes out what is at the places picked. -/
theorem takeOut_places (pool : List α) (seed : UInt64) :
    takeOut pool (places pool.length seed) = some (shuffle pool seed) := by
  fun_induction shuffle pool seed with
  | case1 pool seed h hi ih =>
    obtain ⟨n, hn⟩ : ∃ n, pool.length = n + 2 := ⟨pool.length - 2, by omega⟩
    have hplaces : places pool.length seed = pick (next seed) pool.length ::
        places (pool.eraseIdx (pick (next seed) pool.length)).length (next seed) := by
      rw [List.length_eraseIdx_of_lt hi, hn]
      rfl
    rw [hplaces, takeOut_cons hi, ih, Option.map_some]
  | case2 pool seed h =>
    rcases pool with _ | ⟨x, _ | ⟨y, pool⟩⟩
    · rfl
    · rfl
    · exact absurd (Nat.le_add_left 2 pool.length) h

theorem takeOut_map (f : α → β) (pool : List α) (is : List Nat) :
    takeOut (pool.map f) is = (takeOut pool is).map (List.map f) := by
  induction is generalizing pool with
  | nil => rfl
  | cons i is ih =>
    rw [takeOut, takeOut, List.eraseIdx_map, ih, List.getElem?_map]
    cases pool[i]? with
    | none => rfl
    | some x => cases takeOut (pool.eraseIdx i) is <;> rfl

/-- Places do not depend on what is put in order. -/
theorem shuffle_map (f : α → β) (pool : List α) (seed : UInt64) :
    shuffle (pool.map f) seed = (shuffle pool seed).map f := by
  have h := takeOut_places (pool.map f) seed
  rw [takeOut_map, List.length_map, takeOut_places] at h
  exact (Option.some.inj h).symm

theorem toList_text (s : String) (seed : UInt64) : (text s seed).toList = shuffle s.toList seed :=
  String.toList_ofList

theorem isUnique_text (s : String) (seed : UInt64) :
    Distinct.isUnique (text s seed) = Distinct.isUnique s := by
  rw [Bool.eq_iff_iff, Distinct.isUnique_iff, Distinct.isUnique_iff, toList_text]
  exact (shuffle_perm s.toList seed).nodup_iff

/-- The text of an alphabet is put in the order that the alphabet is put in. -/
theorem text_alphabet (a : Alphabet) (seed : UInt64) :
    text a.text seed = (a.shuffled seed).text := by
  rw [text, Alphabet.toList_text, shuffle_map]
  rfl

theorem isUnique_alphabet (a : Alphabet) : Distinct.isUnique a.text = true := by
  rw [Distinct.isUnique_iff, Alphabet.toList_text]
  exact List.Nodup.map (fun _ _ h => Text.ofUInt8_inj h) a.nodup

/-- The job that prints a shuffled alphabet is over at once. -/
theorem start_shuffle {p : CommandLine.Plan} {a : Alphabet}
    (hp : p.command = .shuffle a.text seed) :
    CommandLine.Job.start p = .done [text a.text seed] := by
  rw [CommandLine.Job.start, hp]
  simp only [isUnique_alphabet, if_true]

/-- In a text of fewer than two to the 46th characters, every pick of a shuffle is one exact product
and quotient of words and falls into what is left of the text. There is one pick for each character
but the last, and nothing is lost or repeated, so a text of distinct characters stays one. A text
that is read as an alphabet is put in the order that the alphabet is put in, in its tray as well,
and the command line prints just the alphabet that an issuer of that text and seed writes with. -/
theorem text_exact :
    (∀ s seed, s.length < 2 ^ 46 →
      (∀ d ∈ draws s.length seed, d.1.toNat * d.2 < UInt64.size ∧
        pick d.1 d.2 = d.1.toNat * d.2 / 233280 ∧ pick d.1 d.2 < d.2) ∧
      (draws s.length seed).length = s.length - 1 ∧
      takeOut s.toList (places s.length seed) = some (text s seed).toList ∧
      (text s seed).toList.Perm s.toList ∧
      Distinct.isUnique (text s seed) = Distinct.isUnique s) ∧
    (∀ s, Distinct.isUnique s = true ↔ s.toList.Nodup) ∧
    ∀ s a seed, Alphabet.ofString s = .ok a →
      text s seed = (a.shuffled seed).text ∧ text s seed = (a.tray.shuffled seed).text ∧
      (∀ p : CommandLine.Plan, p.command = .shuffle s seed →
        (CommandLine.Job.start p).isOver = true ∧
        CommandLine.Report.ofJob (CommandLine.Job.start p) = ⟨0, text s seed ++ "\n", ""⟩) ∧
      ∀ worker g, ShortId.Settings.issuer ⟨worker, s, seed⟩ = .ok g →
        g.alphabet.text = text s seed := by
  refine ⟨?_, fun s => Distinct.isUnique_iff, ?_⟩
  · intro s seed hlen
    have hproduct : ∀ d ∈ draws s.length seed, d.1.toNat * d.2 < UInt64.size :=
      fun d hd => product_lt hd hlen
    refine ⟨fun d hd => ⟨hproduct d hd, pick_eq (hproduct d hd), pick_lt hd⟩,
      length_draws s.length seed, ?_, ?_, isUnique_text s seed⟩
    · rw [toList_text, ← String.length_toList]
      exact takeOut_places s.toList seed
    · rw [toList_text]
      exact shuffle_perm s.toList seed
  · intro s a seed ha
    obtain rfl := Alphabet.ofString_eq_ok_iff.mp ha
    refine ⟨text_alphabet a seed, ?_, ?_, ?_⟩
    · rw [Tray.tray_shuffled, Tray.text_tray]
      exact text_alphabet a seed
    · intro p hp
      rw [start_shuffle hp]
      refine ⟨rfl, ?_⟩
      simp [CommandLine.Report.ofJob, CommandLine.Job.done, CommandLine.Job.lines,
        CommandLine.Report.unlines]
    · intro worker g hg
      have hissuer := ShortId.Settings.issuer_of_alphabet (s := ⟨worker, a.text, seed⟩) ha
      rw [(ShortId.Issuer.ofWorker_eq_ok (hissuer.symm.trans hg)).2]
      exact (text_alphabet a seed).symm

/-- The last worker of 32 symbols. -/
def lastOfBase32 : ShortId.Settings := ⟨15, Alphabet.base32Text, 3⟩

theorem lastOfBase32_text : Alphabet.base32Text.length < 2 ^ 46 ∧
    takeOut Alphabet.base32Text.toList (places 32 3) = some (text Alphabet.base32Text 3).toList ∧
    ∃ a g, Alphabet.ofString Alphabet.base32Text = .ok a ∧ lastOfBase32.issuer = .ok g ∧
      g.alphabet.text = text Alphabet.base32Text 3 ∧
      CommandLine.Report.ofJob (CommandLine.Job.start
        ⟨{}, lastOfBase32, .shuffle Alphabet.base32Text 3⟩) =
          ⟨0, text Alphabet.base32Text 3 ++ "\n", ""⟩ := by
  have hlen : Alphabet.base32Text.length < 2 ^ 46 := by decide
  obtain ⟨hpicks, _, halphabet⟩ := text_exact
  obtain ⟨_, _, htake, _⟩ := hpicks Alphabet.base32Text 3 hlen
  have hread : Alphabet.ofString Alphabet.base32Text = .ok .base32 :=
    Alphabet.ofString_eq_ok_iff.mpr rfl
  have hissuer : lastOfBase32.issuer = .ok ⟨15, .shuffled .base32 3, by decide +kernel⟩ :=
    (ShortId.Settings.issuer_of_alphabet (s := lastOfBase32) hread).trans
      (ShortId.Issuer.ofWorker_of_le _)
  obtain ⟨_, _, hprint, hwriter⟩ := halphabet Alphabet.base32Text .base32 3 hread
  exact ⟨hlen, htake, _, _, hread, hissuer, hwriter 15 _ hissuer, (hprint _ rfl).2⟩

end IdMint.Shuffle
