import IdMint.Proofs.Json.Strings
import IdMint.Proofs.TimeId.Parsing
import IdMint.Record

/-! A record's identifier in JSON. The alphabet may hold any printable symbols, those included that
a string in JSON must not hold as they are. -/
namespace IdMint.Record

open Json

variable {n : Numerals} {l : List Char} {s : String} {id : TimeId} {cause : Refusal}

/-- The text of a record whose string is spelled in a given way. -/
def spelled (l : List Char) : String :=
  "\x7b\"event_id\":\"" ++ String.ofList l ++ "\"\x7d"

theorem toList_spelled (l : List Char) : (spelled l).toList =
    '\x7b' :: '"' :: ("event_id".toList ++ '"' :: ':' :: '"' :: (l ++ '"' :: ['\x7d'])) := by
  simp [spelled]

theorem escaped_name : "event_id".toList.flatMap escapeChar = "event_id".toList := by decide

def ofText (s : String) : Value := .record [("event_id", .text s)]

/-- However the string is spelled, the record holds the text it spells. -/
theorem read_spelled (h : Spells l s.toList) :
    Json.read (spelled l) = some (ofText s) := by
  have hname := spells_escaped "event_id".toList
  rw [escaped_name] at hname
  obtain ⟨fuel, hfuel⟩ : ∃ fuel, (spelled l).toList.length + 1 = fuel + 3 := by
    rw [toList_spelled]
    exact ⟨_, rfl⟩
  have hread := readValue_object hname h fuel []
  rw [← toList_spelled] at hread
  simp only [Json.read, hfuel, hread]
  rfl

/-- A record is written with the symbols of its identifier escaped where they have to be. -/
theorem render_toJson (n : Numerals) (r : Record) :
    (r.toJson n).render = spelled ((r.eventId.numeral n).toList.flatMap escapeChar) := by
  have hname : quote "event_id" = "\"event_id\"" := by decide
  have htext : (r.toJson n).render =
      "\x7b" ++ (quote "event_id" ++ ":" ++ quote (r.eventId.numeral n)) ++ "\x7d" := rfl
  rw [htext, hname, ← String.toList_inj, toList_spelled]
  simp [quote]

theorem ofValue_ofText (n : Numerals) (s : String) :
    ofValue n (ofText s) = (fieldId n (.text s)).map Record.mk := rfl

theorem ofJson?_ofText (n : Numerals) (s : String) :
    ofJson? n (ofText s) = (fieldId n (.text s)).toOption.map Record.mk := rfl

theorem fieldId_of_read (h : n.read s = .ok id.raw) : fieldId n (.text s) = .ok id := by
  simp only [fieldId, Value.text, TimeId.ofNumeral, h, Except.map]

theorem fieldId_of_refused (h : n.read s = .error cause) :
    fieldId n (.text s) = .error (.undecodable cause) := by
  simp only [fieldId, Value.text, TimeId.ofNumeral, h, Except.map]

/-- Over any alphabet, the text that is written of a record spells its identifier, and the record is
read back from it. A string, however it is spelled, gives the identifier whose word it is read as,
or else the reason why it is no word. -/
theorem field_exact (n : Numerals) :
    (∀ r : Record,
      (∃ l, Spells l (n.write r.eventId.raw).toList ∧ (r.toJson n).render = spelled l) ∧
      ∃ v, Json.read (r.toJson n).render = some v ∧ ofValue n v = .ok r ∧ ofJson? n v = some r) ∧
    ∀ l s, Spells l s.toList → Json.read (spelled l) = some (ofText s) ∧
      (∀ id, ofValue n (ofText s) = .ok ⟨id⟩ ↔ n.read s = .ok id.raw) ∧
      (∀ id, ofJson? n (ofText s) = some ⟨id⟩ ↔ n.read s = .ok id.raw) ∧
      ∀ cause, n.read s = .error cause → ofJson? n (ofText s) = none ∧
        ∃ f, ofValue n (ofText s) = .error f ∧ f.message = cause.message := by
  constructor
  · intro r
    have hid : fieldId n (.text (r.eventId.numeral n)) = .ok r.eventId :=
      fieldId_of_read (Numerals.read_write n r.eventId.raw)
    have htext := render_toJson n r
    refine ⟨⟨_, spells_escaped _, htext⟩, ofText (r.eventId.numeral n), ?_, ?_, ?_⟩
    · rw [htext, read_spelled (spells_escaped _)]
    · rw [ofValue_ofText, hid]
      rfl
    · rw [ofJson?_ofText, hid]
      rfl
  · intro l s h
    refine ⟨read_spelled h, ?_⟩
    rw [ofValue_ofText, ofJson?_ofText]
    cases hread : n.read s with
    | ok x =>
      have hid : fieldId n (.text s) = .ok ⟨x⟩ := fieldId_of_read hread
      have hraw (id : TimeId) : TimeId.mk x = id ↔ x = id.raw := by
        cases id
        simp
      rw [hid]
      simp [Except.map, Except.toOption, hraw]
    | error e =>
      rw [fieldId_of_refused hread]
      refine ⟨fun id => ⟨nofun, nofun⟩, fun id => ⟨nofun, nofun⟩, ?_⟩
      rintro cause ⟨⟩
      exact ⟨rfl, _, rfl, rfl⟩

example : spelled ("\"\\".toList.flatMap escapeChar) =
    "\x7b\"event_id\":\"\\\"\\\\\"\x7d" := by decide

end IdMint.Record
