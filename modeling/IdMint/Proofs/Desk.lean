import IdMint.Desk
import Mathlib.Data.List.Nodup

/-! Nothing that has been in force is lost: every set hands back what it replaces, and what has been
handed out is asked as it was then, whatever is put in force later. -/
namespace IdMint

variable {ο α κ ρ ω : Type}

def Reply.previous? : Reply α ρ → Option (Edition α)
  | .replaced e => some e
  | _ => none

def Reply.edition? : Reply α ρ → Option (Edition α)
  | .replaced e | .handed e => some e
  | _ => none

/-- Values under consecutive numbers. -/
def numbered (n : Nat) : List α → List (Edition α)
  | [] => []
  | a :: as => ⟨n, a⟩ :: numbered (n + 1) as

theorem le_number {n : Nat} {as : List α} : ∀ e ∈ numbered n as, n ≤ e.number := by
  induction as generalizing n with
  | nil => simp [numbered]
  | cons a as ih =>
    intro e he
    rcases List.mem_cons.mp he with rfl | he
    · exact Nat.le_refl n
    · exact Nat.le_of_succ_le (ih e he)

theorem nodup_numbered (n : Nat) (as : List α) : (numbered n as).Nodup := by
  induction as generalizing n with
  | nil => exact List.nodup_nil
  | cons a as ih =>
    refine List.nodup_cons.mpr ⟨fun h => ?_, ih (n + 1)⟩
    have hle := le_number _ h
    simp only at hle
    omega

def Desk.asked? (d : Desk α ω) : Errand ο κ → Option α
  | .ask _ => some d.current.value
  | .askHeld place _ => d.held[place]?.map Edition.value
  | _ => none

namespace Service

variable (S : Service ο α κ ρ ω) (d : Desk α ω) (es fs : List (Errand ο κ)) {e : Errand ο κ} {a : α}
  {order : ο} {cause : Refusal} {b : Edition α}

def puts? : Errand ο κ → Option α
  | .set order => (S.make order).toOption
  | _ => none

def after (es : List (Errand ο κ)) : Desk α ω := (S.run d es).2

def reply (es : List (Errand ο κ)) (e : Errand ο κ) : Reply α ρ := (S.turn (S.after d es) e).1

/-- What sets have handed back, in order. -/
def returned (es : List (Errand ο κ)) : List (Edition α) := (S.run d es).1.filterMap Reply.previous?

/-- What has been in force, in order: what was there at the start, and then whatever was made to
order. -/
def history (es : List (Errand ο κ)) : List (Edition α) :=
  d.current :: numbered (d.current.number + 1) (es.filterMap S.puts?)

/-- What was put in force last, or what was there at the start. -/
def latest (es : List (Errand ο κ)) : Edition α := (S.history d es).getLast (List.cons_ne_nil _ _)

theorem puts?_set (h : S.make order = .ok a) : S.puts? (.set order) = some a := by
  rw [puts?, h]
  rfl

theorem puts?_set_rejected (h : S.make order = .error cause) : S.puts? (.set order) = none := by
  rw [puts?, h]
  rfl

/-- What serving one errand does. -/
inductive Turned : Errand ο κ → Reply α ρ → Desk α ω → Prop where
  | replaced {order : ο} {a : α} (h : S.make order = .ok a) : Turned (.set order)
      (.replaced d.current) ⟨⟨d.edition a⟩, d.held ++ [d.current], S.receive a d.around⟩
  | rejected {order : ο} {cause : Refusal} (h : S.make order = .error cause) :
      Turned (.set order) (.rejected cause) d
  | handed : Turned .hold (.handed d.current) { d with held := d.held ++ [d.current] }
  | asked (query : κ) : Turned (.ask query) (.answered (S.answer d.current.value query d.around).1)
      { d with around := (S.answer d.current.value query d.around).2 }
  | heldAsked {place : Nat} {b : Edition α} (h : d.held[place]? = some b) (query : κ) :
      Turned (.askHeld place query) (.answered (S.answer b.value query d.around).1)
        { d with around := (S.answer b.value query d.around).2 }
  | unknown {place : Nat} (h : d.held[place]? = none) (query : κ) :
      Turned (.askHeld place query) .unknown d

theorem turn_set (h : S.make order = .ok a) : S.turn d (.set order) =
    (.replaced d.current, ⟨⟨d.edition a⟩, d.held ++ [d.current], S.receive a d.around⟩) := by
  rw [turn, h]
  rfl

theorem turn_set_rejected (h : S.make order = .error cause) :
    S.turn d (.set order) = (.rejected cause, d) := by
  rw [turn, h]
  rfl

theorem turned (e : Errand ο κ) : S.Turned d e (S.turn d e).1 (S.turn d e).2 := by
  cases e with
  | set order =>
    cases h : S.make order with
    | ok a =>
      rw [S.turn_set d h]
      exact .replaced h
    | error cause =>
      rw [S.turn_set_rejected d h]
      exact .rejected h
  | hold => exact .handed
  | ask query => exact .asked query
  | askHeld place query =>
    rw [turn]
    cases h : d.held[place]? with
    | some b => exact .heldAsked h query
    | none => exact .unknown h query

/-- An errand replaces the value in force or leaves it. -/
theorem turn_cases (e : Errand ο κ) :
    (∃ a, S.puts? e = some a ∧ (S.turn d e).1 = .replaced d.current ∧
      (S.turn d e).2.current = d.edition a) ∨
    (S.puts? e = none ∧ (S.turn d e).1.previous? = none ∧ (S.turn d e).2.current = d.current) := by
  have h := S.turned d e
  generalize (S.turn d e).1 = reply, (S.turn d e).2 = next at h
  cases h with
  | @replaced order a h => exact .inl ⟨a, S.puts?_set h, rfl, rfl⟩
  | @rejected order cause h => exact .inr ⟨S.puts?_set_rejected h, rfl, rfl⟩
  | handed | asked | heldAsked | unknown => exact .inr ⟨rfl, rfl, rfl⟩

theorem after_append : S.after d (es ++ fs) = S.after (S.after d es) fs := by
  induction es generalizing d with
  | nil => rfl
  | cons e es ih => exact ih (S.turn d e).2

theorem returned_cons : S.returned d (e :: es) =
    (S.turn d e).1.previous?.toList ++ S.returned (S.turn d e).2 es := by
  rw [returned, run, List.filterMap_cons]
  cases h : (S.turn d e).1.previous? <;> rfl

/-- What has been handed back and what is in force are together what has been in force. -/
theorem returned_current : S.returned d es ++ [(S.after d es).current] = S.history d es := by
  induction es generalizing d with
  | nil => rfl
  | cons e es ih =>
    have hnext := ih (S.turn d e).2
    rw [returned_cons, List.append_assoc]
    rcases S.turn_cases d e with ⟨a, hputs, hreply, hcurrent⟩ | ⟨hputs, hreply, hcurrent⟩
    · rw [history, hcurrent] at hnext
      rw [hreply, history, List.filterMap_cons_some hputs]
      exact congrArg (d.current :: ·) hnext
    · rw [history, hcurrent] at hnext
      rw [hreply, history, List.filterMap_cons_none hputs]
      exact hnext

@[simp] theorem current_after : (S.after d es).current = S.latest d es := by
  simp only [latest, ← returned_current, List.getLast_append_singleton]

theorem nodup_history : (S.history d es).Nodup := by
  refine List.nodup_cons.mpr ⟨fun h => ?_, nodup_numbered _ _⟩
  have := le_number _ h
  omega

theorem latest_append : S.latest d (es ++ fs) = S.latest (S.after d es) fs := by
  rw [← current_after, ← current_after, after_append]

/-- Whatever was in force at the start is handed back once by then, unless it is still in force. -/
theorem count_returned_start [DecidableEq α] : (S.returned d es).count d.current =
    if S.latest d es = d.current then 0 else 1 := by
  have hnodup := S.nodup_history d es
  have hmem : d.current ∈ S.returned d es ++ [(S.after d es).current] := by
    rw [returned_current, history]
    exact List.mem_cons_self
  rw [← returned_current, List.nodup_append] at hnodup
  obtain ⟨hreturned, -, hne⟩ := hnodup
  rw [current_after] at hmem hne
  split
  · next heq =>
    refine List.count_eq_zero_of_not_mem fun h => ?_
    exact hne _ h _ (List.mem_singleton_self _) heq.symm
  · next hlatest =>
    rcases List.mem_append.mp hmem with h | h
    · exact List.count_eq_one_of_mem hreturned h
    · exact absurd (List.mem_singleton.mp h).symm hlatest

theorem latest_not_returned : S.latest d es ∉ S.returned d es := by
  have hnodup := S.nodup_history d es
  rw [← returned_current, current_after, List.nodup_append] at hnodup
  exact fun h => hnodup.2.2 _ h _ (List.mem_singleton_self _) rfl

/-- Whatever a caller is handed is what was in force, and is kept. -/
theorem held_turn (e : Errand ο κ) :
    (S.turn d e).2.held = d.held ++ (S.turn d e).1.edition?.toList := by
  have h := S.turned d e
  generalize (S.turn d e).1 = reply, (S.turn d e).2 = next at h
  cases h with
  | replaced | handed => rfl
  | rejected | asked | heldAsked | unknown => exact (List.append_nil _).symm

theorem edition_eq_current (hb : (S.turn d e).1.edition? = some b) : b = d.current := by
  have h := S.turned d e
  generalize (S.turn d e).1 = reply, (S.turn d e).2 = next at h hb
  cases h with
  | replaced | handed => exact (Option.some.inj hb).symm
  | rejected | asked | heldAsked | unknown => cases hb

theorem asked?_of_edition (hb : (S.turn d e).1.edition? = some b) : d.asked? e = none := by
  have h := S.turned d e
  generalize (S.turn d e).1 = reply, (S.turn d e).2 = next at h hb
  cases h with
  | replaced | rejected | handed => rfl
  | asked | heldAsked | unknown => cases hb

theorem held_after : d.held <+: (S.after d es).held := by
  induction es generalizing d with
  | nil => exact List.prefix_refl _
  | cons e es ih =>
    refine List.IsPrefix.trans ?_ (ih (S.turn d e).2)
    rw [held_turn]
    exact List.prefix_append _ _

/-- What is handed out is kept at the next place. -/
theorem held_place (h : (S.reply d es e).edition? = some b) :
    (S.after d (es ++ e :: fs)).held[(S.after d es).held.length]? = some b := by
  have hheld := S.held_turn (S.after d es) e
  rw [show (S.turn (S.after d es) e).1.edition? = some b from h, Option.toList_some] at hheld
  have hprefix := S.held_after (S.turn (S.after d es) e).2 fs
  rw [hheld] at hprefix
  rw [after_append]
  obtain ⟨more, hmore⟩ := hprefix
  rw [show S.after (S.after d es) (e :: fs) = S.after (S.turn (S.after d es) e).2 fs from rfl,
    ← hmore]
  simp

/-- As long as nothing else is put in force, the same value stays. -/
theorem latest_append_of_none (h : ∀ f ∈ fs, S.puts? f = none) :
    S.latest d (es ++ fs) = S.latest d es := by
  have hnone : fs.filterMap S.puts? = [] := List.filterMap_eq_nil_iff.mpr h
  have hhistory : S.history d (es ++ fs) = S.history d es := by
    rw [history, history, List.filterMap_append, hnone, List.append_nil]
  simp only [latest, hhistory]

theorem reply_ask (query : κ) : S.reply d es (.ask query) =
    .answered (S.answer (S.latest d es).value query (S.after d es).around).1 := by
  rw [reply, turn, current_after]
  rfl

theorem reply_askHeld (h : (S.reply d es e).edition? = some b) (query : κ) :
    S.reply d (es ++ e :: fs) (.askHeld (S.after d es).held.length query) =
      .answered (S.answer b.value query (S.after d (es ++ e :: fs)).around).1 := by
  rw [reply, turn, S.held_place d es fs h]
  rfl

/-- How a desk treats the values in force, whatever the errands. -/
structure Faithful [DecidableEq α] : Prop where
  /-- All that has been in force has been handed back, in order, or is in force. -/
  chain : ∀ es, S.returned d es ++ [(S.after d es).current] = S.history d es
  /-- A set hands back what was put in force last before it, and puts its own value in force. -/
  replaced : ∀ es order a, S.make order = .ok a →
    S.reply d es (.set order) = .replaced (S.latest d es) ∧
      (S.latest d (es ++ [.set order])).value = a
  /-- Nothing changes where no value could be made. -/
  rejected : ∀ es order cause, S.make order = .error cause →
    S.turn (S.after d es) (.set order) = (.rejected cause, S.after d es)
  /-- What was put in force last is handed back once later on, unless it stays in force, and never
  before. -/
  once : ∀ es fs, S.latest d es ∉ S.returned d es ∧
    (S.returned (S.after d es) fs).count (S.latest d es) =
      if S.latest d (es ++ fs) = S.latest d es then 0 else 1
  /-- Whoever holds nothing asks what was put in force last. -/
  asked : ∀ es query, S.reply d es (.ask query) =
    .answered (S.answer (S.latest d es).value query (S.after d es).around).1
  /-- Whoever has been handed a value goes on asking that value. -/
  held : ∀ es e fs b query, (S.reply d es e).edition? = some b → b = S.latest d es ∧
    S.reply d (es ++ e :: fs) (.askHeld (S.after d es).held.length query) =
      .answered (S.answer b.value query (S.after d (es ++ e :: fs)).around).1

theorem faithful [DecidableEq α] : S.Faithful d where
  chain es := S.returned_current d es
  replaced es order a h := by
    refine ⟨?_, ?_⟩
    · rw [reply, S.turn_set _ h, current_after]
    · rw [← current_after, after_append, after, run, S.turn_set _ h]
      rfl
  rejected es order cause h := S.turn_set_rejected _ h
  once es fs := by
    refine ⟨S.latest_not_returned d es, ?_⟩
    rw [latest_append, ← current_after]
    exact S.count_returned_start (S.after d es) fs
  asked es query := S.reply_ask d es query
  held es e fs b query h := by
    refine ⟨?_, S.reply_askHeld d es fs h query⟩
    rw [S.edition_eq_current _ h, current_after]

end Service

end IdMint
