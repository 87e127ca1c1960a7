import IdMint.CommandLine.Program
import IdMint.Proofs.TimeId.Parsing
import Mathlib.Data.List.TakeWhile

/-! Which identifiers the command line takes apart in the form in which it prints them. The decimal
form always works. The form over an alphabet is taken for an option where it starts with a hyphen
and goes on, and then the identifier is not looked at. -/
namespace IdMint.CommandLine

variable {env : Environment} {file : Option String} {g : Given} {s : String} {words : List String}
  {command : Command} {id : TimeId}

/-- What is understood behind the name of the command that takes identifiers apart. -/
def decodeForm : Form := ⟨.radix :: sharedFields, [.subject], []⟩

theorem commandForm_decode : commandForm "decode" = decodeForm := rfl

/-- The word is taken for an option: it starts with a hyphen and goes on. -/
def isOption (s : String) : Bool :=
  match s.toList with
  | '-' :: _ :: _ => true
  | _ => false

/-- The option asks for help. -/
def asksHelp (s : String) : Bool :=
  match s.toList with
  | '-' :: 'h' :: _ | ['-', '-', 'h', 'e', 'l', 'p'] => true
  | _ => false

/-- Nothing but the flag for the form over an alphabet has been said. -/
def flagged : Given := ⟨[(.radix, "")], none, [.subject]⟩

/-- No field that every command shares has been set. -/
def Unset (g : Given) : Prop := ∀ f ∈ sharedFields, g.value? f = none

/-- A word that is no option is taken by its place. -/
theorem word_of_not_option (hs : isOption s = false) (hg : g.pending = none) (form : Form) :
    g.word form s = g.place s := by
  rw [isOption] at hs
  rw [Given.word]
  split at hs
  · cases hs
  · rename_i hcs
    split
    · rename_i cs h
      exact absurd h (hcs _ _)
    · rename_i c cs _ h
      exact absurd h (hcs _ _)
    · rw [hg]

/-- The word that has a place waits there to be settled. -/
theorem place_subject (hg : g.pending = none) (hp : g.places = [.subject]) :
    g.place s = .ok { g with pending := some (.subject, some s), places := [] } := by
  rw [Given.place, hp, Given.settle, hg]
  rfl

theorem scan_subject (hs : isOption s = false) (hg : g.pending = none)
    (hp : g.places = [.subject]) : Given.scan decodeForm g false [s] =
      .ok ({ g with pending := some (.subject, some s), places := [] }, none) := by
  have hmark : s ≠ "--" := by
    rintro rfl
    cases hs
  rw [Given.scan]
  simp only [Bool.false_eq_true, if_false, decodeForm, List.contains_nil, Bool.and_false, hmark]
  rw [word_of_not_option hs hg, place_subject hg hp]
  rfl

/-- After the mark every word is taken by its place. -/
theorem scan_marked (hg : g.pending = none) (hp : g.places = [.subject]) :
    Given.scan decodeForm g false ["--", s] =
      .ok ({ g with pending := some (.subject, some s), places := [] }, none) := by
  rw [Given.scan]
  simp only [Bool.false_eq_true, if_false, decodeForm, List.contains_nil, Bool.and_false, if_true]
  rw [Given.scan, if_pos rfl, place_subject hg hp]
  rfl

theorem scan_flag (rest : List String) :
    Given.scan decodeForm (.start decodeForm) false ("--radix" :: rest) =
      Given.scan decodeForm flagged false rest := rfl

/-- The fields that every command shares are read from the environment where none of them is set. -/
theorem isReadable_of_unset (h : Unset g) :
    env.isReadable decodeForm g = env.isReadable programForm (.start programForm) := by
  have hradix : Field.envName? .radix = none := rfl
  rw [Environment.isReadable, Environment.isReadable, decodeForm, programForm, List.all_cons,
    hradix]
  simp only [Option.bind_none, Bool.true_and]
  rw [Bool.eq_iff_iff, List.all_eq_true, List.all_eq_true]
  refine forall₂_congr fun f hf => ?_
  have hunset : g.has f = false := by rw [Given.has, h f hf]; rfl
  rw [hunset]
  rfl

theorem lookup_of_unset (h : Unset g) {f : Field} (hf : f ∈ sharedFields) (outer : Given) :
    lookup outer g env f = lookup outer (.start programForm) env f := by
  rw [lookup, lookup, h f hf]
  rfl

theorem ofTexts_congr {get get' : Field → Option String} (h : ∀ f ∈ sharedFields, get f = get' f)
    (command : Command) : Arguments.ofTexts get command = Arguments.ofTexts get' command := by
  rw [Arguments.ofTexts, Arguments.ofTexts, h .node (by decide), h .precision (by decide),
    h .alphabet (by decide), h .seed (by decide), h .worker (by decide)]

/-- The arguments where the environment alone has a say. -/
def Environment.arguments (env : Environment) (command : Command) : Arguments :=
  .ofTexts (lookup (.start programForm) (.start programForm) env) command

/-- The words behind `decode` make up a command and set nothing else. -/
def Asks (words : List String) (command : Command) : Prop :=
  ∃ g inner, Given.scan decodeForm (.start decodeForm) false words = .ok (g, none) ∧
    g.settle = .ok inner ∧ Unset inner ∧ commandOf? "decode" inner = some command

theorem readArguments_of_asks (h : Asks words command) :
    readArguments env ("decode" :: words) =
      if env.isReadable programForm (.start programForm) then .ok (env.arguments command)
      else .error .misuse := by
  obtain ⟨g, inner, hscan, hsettle, hunset, hcommand⟩ := h
  have hread : readCommand env "decode" words =
      if env.isReadable programForm (.start programForm) then .ok (inner, command)
      else .error .misuse := by
    rw [readCommand, commandForm_decode, hscan]
    simp only [bind, Except.bind, hsettle, hcommand, isReadable_of_unset hunset, pure, Except.pure]
    rfl
  have hname : Given.scan programForm (.start programForm) false ("decode" :: words) =
      .ok (.start programForm, some ("decode", words)) := rfl
  have hlookup : Arguments.ofTexts (lookup (.start programForm) inner env) command =
      env.arguments command := ofTexts_congr (fun f hf => lookup_of_unset hunset hf _) command
  have hhelp : ¬ "decode" = "help" := by decide
  rw [readArguments, hname]
  have houter : (Given.start programForm).settle = .ok (.start programForm) := rfl
  simp only [bind, Except.bind, hread, if_neg hhelp]
  cases hreadable : env.isReadable programForm (.start programForm) with
  | false => rfl
  | true =>
    simp only [if_true, houter, hreadable, ← hlookup]
    rfl

/-- The environment after a file of assignments, if there is one. -/
def Environment.with (env : Environment) (file : Option String) : Environment :=
  match file with
  | none => env
  | some text => Assignments.apply env text

/-- The node that the environment sets. -/
def Environment.node (env : Environment) : Nat := (env.arguments (.decode "" false)).node

/-- An identifier is taken apart, unless the environment is at fault. -/
def Environment.decoded (env : Environment) (id : TimeId) : Except Halt Job :=
  if env.isReadable programForm (.start programForm) then
    if TimeId.maxNode < env.node then .ok (.failed (.nodeTooLarge env.node))
    else .ok (.done (Job.description id))
  else .error .misuse

theorem ofArguments_decode {a : Arguments} {radix : Bool} (h : a.command = .decode s radix) :
    Plan.ofArguments a = if TimeId.maxNode < a.node then .error (.nodeTooLarge a.node)
      else .ok ⟨⟨a.node, a.precision⟩, ⟨a.worker, a.alphabet, a.seed⟩, .decode s radix⟩ := by
  simp only [Plan.ofArguments, h]

theorem prepare_eq (env : Environment) (file : Option String) (words : List String) :
    prepare env file words = (readArguments (env.with file) words).map fun a =>
      match Plan.ofArguments a with
      | .ok plan => Job.start plan
      | .error f => Job.failed f := by
  have hprepare : prepare env file words = (readArguments (env.with file) words).bind fun a =>
      match Plan.ofArguments a with
      | .ok plan => .ok (Job.start plan)
      | .error f => .ok (Job.failed f) := by
    cases file <;> rfl
  rw [hprepare]
  cases readArguments (env.with file) words with
  | error h => rfl
  | ok a =>
    simp only [Except.bind, Except.map]
    cases Plan.ofArguments a <;> rfl

theorem prepare_of_asks {radix : Bool} (h : Asks words (.decode s radix))
    (hid : (if radix then TimeId.ofNumeral .standard s else TimeId.ofDecimal s) = .ok id)
    (env : Environment) (file : Option String) :
    prepare env file ("decode" :: words) = (env.with file).decoded id := by
  rw [prepare_eq, readArguments_of_asks h, Environment.decoded]
  generalize env.with file = env
  cases env.isReadable programForm (.start programForm) with
  | false => rfl
  | true =>
    have hplan := ofArguments_decode (a := env.arguments (.decode s radix)) rfl
    have hnode : (env.arguments (.decode s radix)).node = env.node := rfl
    simp only [if_true, Except.map, hplan, hnode]
    by_cases hlarge : TimeId.maxNode < env.node
    · simp only [if_pos hlarge]
    · simp only [if_neg hlarge, Job.start, hid]

theorem asks_plain (hs : isOption s = false) : Asks [s] (.decode s false) := by
  refine ⟨_, ⟨[(.subject, s)], none, []⟩, scan_subject hs rfl rfl, rfl, ?_, rfl⟩
  simp [Unset, sharedFields, Given.value?]

theorem asks_flagged (hs : isOption s = false) : Asks ["--radix", s] (.decode s true) := by
  refine ⟨_, ⟨[(.radix, ""), (.subject, s)], none, []⟩,
    (scan_flag [s]).trans (scan_subject hs rfl rfl), rfl, ?_, rfl⟩
  simp [Unset, sharedFields, Given.value?]

theorem asks_marked (s : String) : Asks ["--radix", "--", s] (.decode s true) := by
  refine ⟨_, ⟨[(.radix, ""), (.subject, s)], none, []⟩,
    (scan_flag ["--", s]).trans (scan_marked rfl rfl), rfl, ?_, rfl⟩
  simp [Unset, sharedFields, Given.value?]

/-- No option of one letter is understood but the one for help. -/
theorem letter_flagged (c : Char) (rest : List Char) : flagged.letter decodeForm c rest =
    .error (if c = 'h' then .help else .misuse) := by
  have hnone : decodeForm.named.find? (fun f => f.shortName? == some c) = none := rfl
  have hversion : ¬ (c = 'V' ∧ decodeForm.commands ≠ []) := fun h => h.2 rfl
  rw [Given.letter, if_neg hversion, hnone]
  split
  · rfl
  · rfl

/-- An option by a long name asks for help, is not understood, or waits for a value. -/
theorem long_flagged (name : String) :
    flagged.long decodeForm name none = .error (if name = "help" then .help else .misuse) ∨
      name ≠ "help" ∧ ∃ f,
        flagged.long decodeForm name none = .ok { flagged with pending := some (f, none) } := by
  have hversion : ¬ (name = "version" ∧ decodeForm.commands ≠ []) := fun h => h.2 rfl
  rw [Given.long, if_neg hversion]
  by_cases hname : name = "help"
  · left
    rw [if_pos hname, if_pos hname]
    rfl
  · rw [if_neg hname, if_neg hname]
    cases hf : decodeForm.named.find? fun f => f.longName? == some name with
    | none => exact Or.inl rfl
    | some f =>
      cases hflag : f.isFlag with
      | false => exact Or.inr ⟨hname, f, by simp only [hflag]; rfl⟩
      | true =>
        have hradix : f = .radix := by
          have hmem := List.mem_of_find?_eq_some hf
          cases f <;> simp_all [decodeForm, sharedFields, Field.isFlag]
        subst hradix
        left
        simp only [hflag]
        rfl

/-- What is said to a word that is taken for an option. -/
def verdict (s : String) : Halt := if asksHelp s then .help else .misuse

theorem word_long {cs : List Char} (hs : s.toList = '-' :: '-' :: cs) (hequals : '=' ∉ cs)
    (form : Form) (g : Given) : g.word form s = g.long form (String.ofList cs) none := by
  have hall : ∀ c ∈ cs, (c != '=') = true := by
    intro c hc
    rw [bne_iff_ne]
    rintro rfl
    exact hequals hc
  rw [Given.word, hs]
  simp only [List.takeWhile_eq_self_iff.mpr hall, List.dropWhile_eq_nil_iff.mpr hall]

theorem word_letter {c : Char} {cs : List Char} (hs : s.toList = '-' :: c :: cs) (hc : c ≠ '-')
    (form : Form) (g : Given) : g.word form s = g.letter form c cs := by
  rw [Given.word, hs]
  split
  · rename_i h
    cases h
    exact absurd rfl hc
  · rename_i h
    cases h
    rfl
  · rename_i h
    exact absurd rfl (h _ _)

theorem verdict_long {cs : List Char} (hs : s.toList = '-' :: '-' :: cs) :
    verdict s = if String.ofList cs = "help" then .help else .misuse := by
  have hhelp : String.ofList cs = "help" ↔ cs = ['h', 'e', 'l', 'p'] := by
    rw [← String.toList_inj, String.toList_ofList]
    rfl
  rw [verdict, asksHelp, hs]
  simp only [hhelp]
  split
  · simp_all
  · simp_all
  · rename_i _ hno
    rw [if_neg (by decide), if_neg fun h => hno (by rw [h])]

theorem verdict_letter {c : Char} {cs : List Char} (hs : s.toList = '-' :: c :: cs) (hc : c ≠ '-') :
    verdict s = if c = 'h' then .help else .misuse := by
  rw [verdict, asksHelp, hs]
  split
  · simp_all
  · simp_all
  · rename_i hno _
    rw [if_neg (by decide), if_neg fun h => hno cs (by rw [h])]

/-- What is taken for an option ends the command line, or leaves it without an identifier. -/
theorem scan_option (hs : isOption s = true) (hequals : '=' ∉ s.toList) :
    Given.scan decodeForm flagged false [s] = .error (verdict s) ∨
      verdict s = .misuse ∧ ∃ pending : Option (Field × Option String),
        (∀ p ∈ pending, p.2 = none) ∧
        Given.scan decodeForm flagged false [s] = .ok ({ flagged with pending }, none) := by
  obtain ⟨c, cs, hlist⟩ : ∃ c cs, s.toList = '-' :: c :: cs := by
    rw [isOption] at hs
    split at hs
    · rename_i c cs h
      exact ⟨c, cs, h⟩
    · cases hs
  have hscan : s ≠ "--" → Given.scan decodeForm flagged false [s] =
      (flagged.word decodeForm s).map fun g => (g, none) := by
    intro hmark
    rw [Given.scan]
    simp only [Bool.false_eq_true, if_false, decodeForm, List.contains_nil, Bool.and_false, hmark]
    cases flagged.word ⟨.radix :: sharedFields, [.subject], []⟩ s <;> rfl
  by_cases hc : c = '-'
  · subst hc
    have hverdict := verdict_long hlist
    by_cases hmark : s = "--"
    · subst hmark
      exact Or.inr ⟨rfl, none, by simp, rfl⟩
    · have hcs : '=' ∉ cs := fun h => hequals (by simp [hlist, h])
      rw [hscan hmark, word_long hlist hcs]
      rcases long_flagged (String.ofList cs) with h | ⟨hname, f, h⟩
      · rw [h, hverdict]
        exact Or.inl rfl
      · rw [h, hverdict, if_neg hname]
        exact Or.inr ⟨rfl, some (f, none), by simp, rfl⟩
  · have hmark : s ≠ "--" := by
      rintro rfl
      cases hlist
      exact hc rfl
    rw [hscan hmark, word_letter hlist hc, letter_flagged, verdict_letter hlist hc]
    exact Or.inl rfl

theorem readArguments_option (hs : isOption s = true) (hequals : '=' ∉ s.toList)
    (env : Environment) :
    readArguments env ["decode", "--radix", s] = .error (verdict s) := by
  have hname : Given.scan programForm (.start programForm) false ["decode", "--radix", s] =
      .ok (.start programForm, some ("decode", ["--radix", s])) := rfl
  have hhelp : ¬ "decode" = "help" := by decide
  have hread : readCommand env "decode" ["--radix", s] = .error (verdict s) := by
    rw [readCommand, commandForm_decode, scan_flag]
    rcases scan_option hs hequals with hscan | ⟨hverdict, pending, hopen, hscan⟩
    · rw [hscan]
      rfl
    · rw [hscan, hverdict]
      cases pending with
      | none =>
        have hnone : commandOf? "decode" flagged = none := rfl
        have hsettle : Given.settle { flagged with pending := none } = .ok flagged := rfl
        simp only [bind, Except.bind, hsettle, hnone]
        cases env.isReadable decodeForm flagged <;> rfl
      | some p =>
        obtain ⟨f, value⟩ := p
        obtain rfl : value = none := hopen (f, value) rfl
        rfl
  rw [readArguments, hname]
  simp only [bind, Except.bind, hread, if_neg hhelp]

theorem prepare_option (hs : isOption s = true) (hequals : '=' ∉ s.toList) (env : Environment)
    (file : Option String) : prepare env file ["decode", "--radix", s] = .error (verdict s) := by
  rw [prepare_eq, readArguments_option hs hequals]
  rfl

theorem equals_not_mem_numeral (id : TimeId) : '=' ∉ (id.numeral .standard).toList := by
  have hequals : 61 ∉ Alphabet.standard.symbols := by decide
  rw [TimeId.toList_numeral]
  intro h
  obtain ⟨b, hb, he⟩ := List.mem_map.mp h
  obtain rfl : b = 61 := Text.ofUInt8_inj he
  exact hequals (Numerals.mem_symbols_of_numeral hb)

theorem not_isOption_decimal (id : TimeId) : isOption id.decimal = false := by
  rw [isOption]
  split
  · rename_i c cs h
    have hmem : '-' ∈ id.decimal.toList := by rw [h]; exact List.mem_cons_self ..
    exact absurd hmem (Decimal.hyphen_not_mem_text _)
  · rfl

theorem isOption_iff {c : Char} {cs : List Char} (hs : s.toList = c :: cs) :
    isOption s = true ↔ c = '-' ∧ cs ≠ [] := by
  rw [isOption, hs]
  split
  · simp_all
  · rename_i hno
    refine iff_of_false (by decide) ?_
    rintro ⟨rfl, hcs⟩
    obtain ⟨d, ds, rfl⟩ := List.exists_cons_of_ne_nil hcs
    exact hno d ds rfl

/-- The form over the alphabet starts with the symbol of the most significant digit. -/
theorem toList_numeral_cons (id : TimeId) : ∃ cs, (id.numeral .standard).toList =
      Char.ofUInt8 (Alphabet.standard.symbol
        ((Digits.ofNat 64 id.raw.toNat).getLast Digits.ofNat_ne_nil)) :: cs ∧
    (cs ≠ [] ↔ 2 ≤ Digits.width 64 id.raw.toNat) := by
  have hradix : Numerals.standard.radix = 64 := rfl
  rw [TimeId.toList_numeral, Numerals.numeral, hradix]
  generalize id.raw.toNat = n
  have hne : Digits.ofNat 64 n ≠ [] := Digits.ofNat_ne_nil
  have hdigits : (Digits.ofNat 64 n).reverse =
      (Digits.ofNat 64 n).getLast hne :: (Digits.ofNat 64 n).dropLast.reverse := by
    conv_lhs => rw [← List.dropLast_concat_getLast hne]
    rw [List.reverse_append, List.reverse_singleton, List.singleton_append]
  rw [hdigits]
  refine ⟨_, rfl, ?_⟩
  rw [← List.length_pos_iff, List.length_map, List.length_map, List.length_reverse,
    List.length_dropLast, Digits.width]
  omega

/-- The identifiers taken for options are those whose first symbol is the last of the alphabet and
not the only one. -/
theorem isOption_numeral_iff (id : TimeId) : isOption (id.numeral .standard) = true ↔
    ∃ k, 0 < k ∧ 63 * 64 ^ k ≤ id.raw.toNat ∧ id.raw.toNat < 64 ^ (k + 1) := by
  have hhyphen : ∀ d < 64, Char.ofUInt8 (Alphabet.standard.symbol d) = '-' ↔ d = 63 := by decide
  have hbase : 2 ≤ 64 := by decide
  have hlt : (Digits.ofNat 64 id.raw.toNat).getLast Digits.ofNat_ne_nil < 64 :=
    Digits.lt_of_mem_ofNat hbase (List.getLast_mem _)
  obtain ⟨cs, hlist, hmore⟩ := toList_numeral_cons id
  rw [isOption_iff hlist, hhyphen _ hlt, hmore]
  exact Digits.getLast_eq_pred_iff hbase

theorem prepare_decimal (id : TimeId) (env : Environment) (file : Option String) :
    prepare env file ["decode", id.decimal] = (env.with file).decoded id :=
  prepare_of_asks (asks_plain (not_isOption_decimal id)) (TimeId.ofDecimal_decimal id) env file

/-- The form over the alphabet is taken apart like the decimal form, unless it is taken for an
option: then there is a word on usage, or help for those that ask for it, and no identifier is
looked at. Behind the mark that ends the options it is always taken apart. -/
theorem decode_numeral_exact (id : TimeId) (env : Environment) (file : Option String) :
    (prepare env file ["decode", "--radix", id.numeral .standard] =
      if isOption (id.numeral .standard) then .error (verdict (id.numeral .standard))
      else prepare env file ["decode", id.decimal]) ∧
    (isOption (id.numeral .standard) = true ↔
      ∃ k, 0 < k ∧ 63 * 64 ^ k ≤ id.raw.toNat ∧ id.raw.toNat < 64 ^ (k + 1)) ∧
    prepare env file ["decode", "--radix", "--", id.numeral .standard] =
      prepare env file ["decode", id.decimal] ∧
    prepare [] none ["decode", id.decimal] = .ok (.done (Job.description id)) ∧
    Report.ofJob (.done (Job.description id)) = ⟨0, Report.unlines (Job.description id), ""⟩ := by
  have hid := TimeId.ofNumeral_numeral .standard id
  refine ⟨?_, isOption_numeral_iff id, ?_, ?_, ?_⟩
  · cases hs : isOption (id.numeral .standard) with
    | true => rw [prepare_option hs (equals_not_mem_numeral id), if_pos rfl]
    | false =>
      rw [if_neg (by decide), prepare_decimal]
      exact prepare_of_asks (asks_flagged hs) hid env file
  · rw [prepare_decimal]
    exact prepare_of_asks (asks_marked _) hid env file
  · rw [prepare_decimal]
    rfl
  · rfl

/-- An identifier whose printed form is not taken apart. -/
theorem hyphened_numeral_misread :
    LineForm.line? ⟨4033⟩ .radix = some "-1" ∧
    prepare [] none ["decode", "--radix", "-1"] = .error .misuse ∧
    prepare [] none ["decode", "4033"] = .ok (.done (Job.description ⟨4033⟩)) := by
  have hdecimal : TimeId.decimal ⟨4033⟩ = "4033" := by decide +kernel
  refine ⟨by decide +kernel, prepare_option (by decide) (by decide) [] none, ?_⟩
  rw [← hdecimal, prepare_decimal]
  rfl

end IdMint.CommandLine
