import IdMint.Defaults
import IdMint.Proofs.Desk
import IdMint.Proofs.Numerals.RoundTrip
import IdMint.Proofs.TimeId.History

/-! The values in force throughout a process can be replaced at any time, and nobody who uses one is
disturbed by that. -/
namespace IdMint

namespace Numerals

variable (d : Desk Numerals Unit) (es fs : List (Errand Order Query)) {e : Errand Order Query}
  {b : Edition Numerals} {a : Alphabet} {symbols : String} {cause : Refusal}

theorem ofOrder_of_alphabet (h : Alphabet.ofString symbols = .ok a) (seed : Option UInt64) :
    ofOrder ⟨symbols, seed⟩ = .ok ⟨seed.elim a a.shuffled⟩ := by
  rw [ofOrder, h]
  cases seed <;> rfl

theorem ofOrder_of_refusal (h : Alphabet.ofString symbols = .error cause) (seed : Option UInt64) :
    ofOrder ⟨symbols, seed⟩ = .error cause := by
  rw [ofOrder, h]
  rfl

def NoneAccepted (es : List (Errand Order Query)) : Prop :=
  ∀ symbols seed, .set ⟨symbols, seed⟩ ∈ es → ∃ cause, Alphabet.ofString symbols = .error cause

theorem puts?_of_noneAccepted (h : NoneAccepted es) : ∀ e ∈ es, service.puts? e = none := by
  intro e he
  cases e with
  | set order =>
    obtain ⟨cause, hcause⟩ := h order.symbols order.seed he
    exact service.puts?_set_rejected (ofOrder_of_refusal hcause order.seed)
  | hold | ask | askHeld => rfl

/-- What has been written is read back as long as the numerals in force are not replaced. -/
theorem ask_read_write (h : NoneAccepted fs) (x : UInt64) :
    service.reply d (es ++ .ask (.write x) :: fs)
      (.ask (.read ((service.latest d es).value.write x))) = .answered (.word (.ok x)) := by
  have hnone : NoneAccepted (.ask (.write x) :: fs) := fun symbols seed hmem =>
    h symbols seed ((List.mem_cons.mp hmem).resolve_left nofun)
  rw [service.reply_ask, service.latest_append_of_none d es _ (puts?_of_noneAccepted _ hnone)]
  exact congrArg (Reply.answered ∘ Answer.word) (read_write _ x)

/-- What callers can rely on, whatever the errands. -/
structure Undisturbed : Prop where
  faithful : service.Faithful d
  /-- Symbols that make an alphabet are put in force, in the order that the seed gives them, and the
  numerals that were in force are handed back. -/
  published : ∀ es symbols seed a, Alphabet.ofString symbols = .ok a →
    service.reply d es (.set ⟨symbols, seed⟩) = .replaced (service.latest d es) ∧
      (service.latest d (es ++ [.set ⟨symbols, seed⟩])).value = ⟨seed.elim a a.shuffled⟩
  /-- All other symbols are turned down, and nothing changes. -/
  rejected : ∀ es symbols seed cause, Alphabet.ofString symbols = .error cause →
    service.turn (service.after d es) (.set ⟨symbols, seed⟩) =
      (.rejected cause, service.after d es)
  /-- The numerals in force are those of the latest symbols that make an alphabet. -/
  kept : ∀ es fs, NoneAccepted fs → service.latest d (es ++ fs) = service.latest d es
  writes : ∀ es x, service.reply d es (.ask (.write x)) =
    .answered (.text ((service.latest d es).value.write x))
  reads : ∀ es s, service.reply d es (.ask (.read s)) =
    .answered (.word ((service.latest d es).value.read s))
  /-- Numerals that have been handed out write and read like those then in force. So does a call
  that has fetched the numerals in force and is overtaken by sets before it answers. -/
  held : ∀ es e fs b, (service.reply d es e).edition? = some b → b = service.latest d es ∧
    (∀ x, service.reply d (es ++ e :: fs) (.askHeld (service.after d es).held.length (.write x)) =
      .answered (.text (b.value.write x))) ∧
    ∀ s, service.reply d (es ++ e :: fs) (.askHeld (service.after d es).held.length (.read s)) =
      .answered (.word (b.value.read s))
  /-- What has been written is read back if nothing is put in force in between. -/
  readBack : ∀ es fs x, NoneAccepted fs →
    service.reply d (es ++ .ask (.write x) :: fs)
      (.ask (.read ((service.latest d es).value.write x))) = .answered (.word (.ok x))

theorem undisturbed : Undisturbed d where
  faithful := service.faithful d
  published es symbols seed a h :=
    (service.faithful d).replaced es _ _ (ofOrder_of_alphabet h seed)
  rejected es symbols seed cause h :=
    (service.faithful d).rejected es _ cause (ofOrder_of_refusal h seed)
  kept es fs h := service.latest_append_of_none d es fs (puts?_of_noneAccepted fs h)
  writes es x := service.reply_ask d es (.write x)
  reads es s := service.reply_ask d es (.read s)
  held es e fs b h := by
    have hheld := (service.faithful d).held es e fs b
    exact ⟨(hheld (.write 0) h).1, fun x => (hheld (.write x) h).2, fun s => (hheld (.read s) h).2⟩
  readBack es fs x h := ask_read_write d es fs h x

end Numerals

namespace TimeId.Fleet

variable (d : Desk Member Fleet) (es fs : List (Errand Order Query)) {e : Errand Order Query}
  {b : Edition Member} {k : Nat}

/-- Nobody asks an issuer that draws from a cell. -/
def Spared (k : Nat) (d : Desk Member Fleet) : List (Errand Order Query) → Prop
  | [] => True
  | e :: es => (∀ m, d.asked? e = some m → m.cell ≠ k) ∧ Spared k (service.turn d e).2 es

theorem make_of_le {node : Nat} (h : node ≤ maxNode) (precision : Precision) (cell : Nat) :
    service.make ⟨node, precision, cell⟩ = .ok ⟨⟨node, precision, h⟩, cell⟩ := by
  simp only [service, Issuer.ofNode, dif_pos h, Except.map]

theorem make_of_lt {node : Nat} (h : maxNode < node) (precision : Precision) (cell : Nat) :
    service.make ⟨node, precision, cell⟩ = .error (.workerTooLarge node maxNode) := by
  simp only [service, Issuer.ofNode, dif_neg (Nat.not_le.mpr h), Except.map]

/-- An issuer put in force is received by the fleet. -/
theorem around_after_set {node : Nat} (h : node ≤ maxNode) {precision : Precision} {cell : Nat} :
    (service.after d (es ++ [.set ⟨node, precision, cell⟩])).around =
      (service.after d es).around.receive ⟨⟨node, precision, h⟩, cell⟩ := by
  rw [service.after_append, Service.after, Service.run, service.turn_set _ (make_of_le h _ _)]
  rfl

/-- A member received with the next number has a cell of its own. -/
theorem receive_found (f : Fleet) (g : Issuer) : f.receive ⟨g, f.cells.length⟩ = f.found g := by
  simp [receive, found]

/-- A member received with a number in use shares the cell. -/
theorem receive_join {f : Fleet} {other : Member} (h : other.cell < f.cells.length) (g : Issuer) :
    f.receive ⟨g, other.cell⟩ = f.join g other := by
  have hnone : other.cell + 1 - f.cells.length = 0 := by omega
  simp [receive, join, hnone]

/-- Making room changes no cell. -/
@[simp] theorem cell_receive (f : Fleet) (m : Member) (k : Nat) :
    (f.receive m).cell k = f.cell k := by
  rw [cell, cell, receive]
  by_cases hk : k < f.cells.length
  · rw [List.getElem?_append_left hk]
  · have hle := Nat.le_of_not_lt hk
    rw [List.getElem?_append_right hle, List.getElem?_eq_none hle, List.getElem?_replicate]
    split <;> rfl

/-- Nothing but a call by one of its issuers changes a cell. -/
theorem cell_turn_of_spared (hm : ∀ m, d.asked? e = some m → m.cell ≠ k) :
    (service.turn d e).2.around.cell k = d.around.cell k := by
  have h := service.turned d e
  generalize (service.turn d e).1 = reply, (service.turn d e).2 = next at h
  cases h with
  | replaced => simp [service]
  | rejected | handed | unknown => rfl
  | asked => exact turn_cell_of_ne (hm _ rfl)
  | @heldAsked place b h =>
    refine turn_cell_of_ne (hm b.value ?_)
    rw [Desk.asked?, h]
    rfl

theorem cell_after_of_spared (h : Spared k d fs) :
    (service.after d fs).around.cell k = d.around.cell k := by
  induction fs generalizing d with
  | nil => rfl
  | cons e fs ih => exact (ih _ h.2).trans (cell_turn_of_spared d h.1)

theorem answer_congr {f g : Fleet} {m : Member} (h : f.cell m.cell = g.cell m.cell)
    (query : Query) :
    (service.answer m query f).1 = (service.answer m query g).1 := by
  simp only [service, turn, h]

/-- An issuer that has been handed out goes on issuing as it would have then, as long as nobody
else draws from its cell. -/
theorem held_undisturbed (h : (service.reply d es e).edition? = some b)
    (hs : Spared b.value.cell (service.turn (service.after d es) e).2 fs) (query : Query) :
    service.reply d (es ++ e :: fs) (.askHeld (service.after d es).held.length query) =
      service.reply d es (.ask query) := by
  have hb := (service.faithful d).held es e fs b query h
  have hcell : (service.after d (es ++ e :: fs)).around.cell b.value.cell =
      (service.after d es).around.cell b.value.cell := by
    have hasked := service.asked?_of_edition _ h
    rw [service.after_append, Service.after, Service.run]
    refine (cell_after_of_spared _ fs hs).trans (cell_turn_of_spared _ ?_)
    intro m hm
    rw [hasked] at hm
    cases hm
  rw [hb.2, answer_congr hcell, hb.1, service.reply_ask]

/-- What callers can rely on, whatever the errands. -/
structure Undisturbed : Prop where
  faithful : service.Faithful d
  /-- An issuer whose node fits is put in force, and the one that was in force is handed back. -/
  published : ∀ es node precision cell (hnode : node ≤ maxNode),
    service.reply d es (.set ⟨node, precision, cell⟩) = .replaced (service.latest d es) ∧
      (service.latest d (es ++ [.set ⟨node, precision, cell⟩])).value =
        ⟨⟨node, precision, hnode⟩, cell⟩
  /-- All others are turned down, and nothing changes. -/
  rejected : ∀ es node precision cell, maxNode < node →
    service.turn (service.after d es) (.set ⟨node, precision, cell⟩) =
      (.rejected (.workerTooLarge node maxNode), service.after d es)
  /-- An issuer put in force has a cell of its own, or the cell that it is to share. -/
  founded : ∀ es node precision (hnode : node ≤ maxNode),
    (service.after d
        (es ++ [.set ⟨node, precision, (service.after d es).around.cells.length⟩])).around =
      (service.after d es).around.found ⟨node, precision, hnode⟩
  joined : ∀ es node precision (hnode : node ≤ maxNode) (other : Member),
    other.cell < (service.after d es).around.cells.length →
    (service.after d (es ++ [.set ⟨node, precision, other.cell⟩])).around =
      (service.after d es).around.join ⟨node, precision, hnode⟩ other
  /-- Whoever holds no issuer is served by the one put in force last. -/
  issues : ∀ es reading demanded t,
    (service.after d es).around.turn ⟨(service.latest d es).value, reading, demanded⟩ = t →
    service.turn (service.after d es) (.ask ⟨reading, demanded⟩) =
      (.answered (t.outcome, t.events), { service.after d es with around := t.fleet })
  /-- Whoever holds an issuer is served by it, whatever has been put in force since. -/
  heldIssues : ∀ es e fs b reading demanded t, (service.reply d es e).edition? = some b →
    (service.after d (es ++ e :: fs)).around.turn ⟨b.value, reading, demanded⟩ = t →
    b = service.latest d es ∧
    service.reply d (es ++ e :: fs)
      (.askHeld (service.after d es).held.length ⟨reading, demanded⟩) =
        .answered (t.outcome, t.events)
  /-- An issuer that has been handed out issues like the one then in force, whatever is put in force
  and whoever issues from other cells. -/
  held : ∀ es e fs b query, (service.reply d es e).edition? = some b →
    Spared b.value.cell (service.turn (service.after d es) e).2 fs →
    service.reply d (es ++ e :: fs) (.askHeld (service.after d es).held.length query) =
      service.reply d es (.ask query)

theorem undisturbed : Undisturbed d where
  faithful := service.faithful d
  published es node precision cell hnode :=
    (service.faithful d).replaced es _ _ (make_of_le hnode precision cell)
  rejected es node precision cell hnode :=
    (service.faithful d).rejected es _ _ (make_of_lt hnode precision cell)
  founded es node precision hnode := by
    rw [around_after_set d es hnode, receive_found]
  joined es node precision hnode other hother := by
    rw [around_after_set d es hnode, receive_join hother]
  issues es reading demanded t ht := by
    rw [← service.current_after] at ht
    subst ht
    rfl
  heldIssues es e fs b reading demanded t h ht := by
    obtain ⟨hb, hreply⟩ := (service.faithful d).held es e fs b ⟨reading, demanded⟩ h
    refine ⟨hb, ?_⟩
    subst ht
    exact hreply
  held es e fs b query h hs := held_undisturbed d es fs h hs query

end TimeId.Fleet

end IdMint
