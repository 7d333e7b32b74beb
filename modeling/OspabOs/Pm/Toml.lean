import OspabOs.Lib.Collections
import OspabOs.Lib.KeyMap

/-!
# The TOML codec of tomato-pm

`parser::toml` reads and writes the flat files tomato-pm keeps its
package lists in. `parse_toml` trims each line, skips blank lines and `#`
comments, takes `[name]` as the section of the lines after it, and reads
`key = value` into the map under `section.key` (`key` outside a section),
cutting one pair of quotes off the value; any other line is an error that
names its number. `serialize_toml` groups the keys by what comes before
their first dot and writes each group under its section header, every
value in double quotes.

Strings are character lists, and the byte offsets the code computes
(`str::find`, `&s[a..b]`) go through `Str`, so a slice taken backwards or
off a char boundary panics here as it does in Rust. Both maps are
`HashMap`s. The parsed one is an association list written by `KeyMap.put`.
The output of `serialize_toml` depends on the order its two maps are
walked in, so that order is an argument: the entries as a list, and the
section names in the order the `sections` map yields them.

What is proved:

- `parseToml_eq_panic_iff`: the parser panics exactly when, before any
  line it rejects, some line is an assignment whose value is a lone quote,
  as in `a = "`: the value slice `[1..0]` runs backwards. Headers and the
  slices around `=` never panic, and a rejected line is reported with its
  number (`parseLine_of_invalid`);
- the round trip breaks on the order of the sections: a key with no dot is
  written after another section's header when `sections` yields that
  section first, and is read back into it; and it breaks on whitespace
  after a key's first dot, which the parser trims off
  (`serializeToml_roundtrip_fails`). With neither, it holds
  (`Pm.TomlRoundTrip`).
-/

namespace OspabOs.Pm

open Text (trim isWhitespace)

/-- What `parse_toml` carries from one line to the next. -/
structure TomlState where
  map : List (List Char × List Char)
  currentSection : List Char
  deriving DecidableEq, Repr

/-! ## How a line is read

`parse_toml` tests a trimmed line in this order: blank or comment,
section header, assignment at its first `=`; any other line is an error. -/

/-- A blank or comment line, skipped: `line.is_empty() || line.starts_with('#')`. -/
def Skipped (line : List Char) : Prop := line = [] ∨ line.head? = some '#'

/-- A section header: `line.starts_with('[') && line.ends_with(']')`. -/
def Header (line : List Char) : Prop := line.head? = some '[' ∧ line.getLast? = some ']'

/-- What follows the first `=`, trimmed: the value part of an assignment. -/
def valueAfterEq (line : List Char) : List Char := trim ((line.dropWhile (· ≠ '=')).drop 1)

/-- An assignment whose value is a lone quote. -/
def LoneQuote (line : List Char) : Prop :=
  ¬ Skipped line ∧ ¬ Header line ∧ '=' ∈ line ∧
    (valueAfterEq line = ['\x22'] ∨ valueAfterEq line = ['\x27'])

/-- A line `parse_toml` rejects: neither blank, comment, header nor assignment. -/
def Invalid (line : List Char) : Prop := ¬ Skipped line ∧ ¬ Header line ∧ '=' ∉ line

instance : DecidablePred Skipped := fun _ => inferInstanceAs (Decidable (_ ∨ _))

instance : DecidablePred Header := fun _ => inferInstanceAs (Decidable (_ ∧ _))

instance : DecidablePred LoneQuote := fun _ => inferInstanceAs (Decidable (_ ∧ _ ∧ _ ∧ _))

instance : DecidablePred Invalid := fun _ => inferInstanceAs (Decidable (_ ∧ _ ∧ _))

/-- The value of an assignment: a quote of either kind at both ends is cut
off by the byte slice `[1..len - 1]`, which runs backwards on a lone
quote. -/
def unquote (valuePart : List Char) : Outcome (List Char) (List Char) :=
  if valuePart.head? = some '\x22' ∧ valuePart.getLast? = some '\x22' then
    Str.slice valuePart 1 (Str.len valuePart - 1)
  else if valuePart.head? = some '\x27' ∧ valuePart.getLast? = some '\x27' then
    Str.slice valuePart 1 (Str.len valuePart - 1)
  else .ok valuePart

/-- One turn of `parse_toml`'s loop, on the line numbered `lineNum` from 0. -/
def parseLine (st : TomlState) (lineNum : Nat) (raw : List Char) : Outcome (List Char) TomlState :=
  let line := trim raw
  if Skipped line then .ok st
  else if Header line then do
    let name ← Str.slice line 1 (Str.len line - 1)
    pure { st with currentSection := name }
  else match Str.find? '=' line with
    | some eqPos => do
      let keyPart := trim (← Str.slice line 0 eqPos)
      let valuePart := trim (← Str.slice line (eqPos + 1) (Str.len line))
      let key := if st.currentSection = [] then keyPart else st.currentSection ++ '.' :: keyPart
      let value ← unquote valuePart
      pure { st with map := KeyMap.put key value st.map }
    | none => .err ("Invalid line ".toList ++ Nat.toDigits 10 (lineNum + 1) ++ ": ".toList ++ line)

/-- The loop of `parse_toml` over the lines from number `lineNum` on. -/
def parseLines (st : TomlState) (lineNum : Nat) : List (List Char) → Outcome (List Char) TomlState
  | [] => .ok st
  | raw :: rest => (parseLine st lineNum raw).bind fun st' => parseLines st' (lineNum + 1) rest

/-- `parse_toml`. -/
def parseToml (content : List Char) : Outcome (List Char) (List (List Char × List Char)) :=
  (parseLines ⟨[], []⟩ 0 (Text.lines content)).bind fun st => .ok st.map

/-! ## `serialize_toml` -/

/-- `key.find('.')` and the slices either side of the dot; a key with no
dot goes to the section `""`. -/
def splitKey (key : List Char) : List Char × List Char :=
  if '.' ∈ key then (key.takeWhile (· ≠ '.'), (key.dropWhile (· ≠ '.')).drop 1) else ([], key)

/-- `sections.entry(section).or_insert(Vec::new()).push((subkey, value))`
for one entry of the map. -/
def pushEntry (sections : List (List Char × List (List Char × List Char))) (entry : List Char × List Char) :
    List (List Char × List (List Char × List Char)) :=
  match KeyMap.get? (splitKey entry.1).1 sections with
  | some _ => KeyMap.modify (splitKey entry.1).1 (· ++ [((splitKey entry.1).2, entry.2)]) sections
  | none => KeyMap.put (splitKey entry.1).1 [((splitKey entry.1).2, entry.2)] sections

/-- The `sections` map: every entry pushed, in the order the map yields
them. -/
def sectionsOf (entries : List (List Char × List Char)) : List (List Char × List (List Char × List Char)) :=
  entries.foldl pushEntry []

/-- `format!("{} = \"{}\"\n", key, value)`. -/
def assignment (key value : List Char) : List Char :=
  key ++ " = ".toList ++ '\x22' :: value ++ ['\x22', '\n']

/-- One section of the output: its header unless it is `""`, a line for
each key, and a blank line. -/
def sectionText (name : List Char) (keys : List (List Char × List Char)) : List Char :=
  (if name = [] then [] else '[' :: name ++ [']', '\n']) ++
    keys.flatMap (fun kv => assignment kv.1 kv.2) ++ ['\n']

/-- `serialize_toml`: `entries` are the map's entries in the order it
yields them, and `order` the section names in the order the `sections`
map yields them. -/
def serializeToml (entries : List (List Char × List Char)) (order : List (List Char)) : List Char :=
  order.flatMap fun name => sectionText name ((KeyMap.get? name (sectionsOf entries)).getD [])

/-- The characters the format writes around keys and values. -/
def specialChars : List Char := ['\n', '=', '\x22', '\x27', '#', '[', ']']

/-- What the round trip asks of a key or a value: none of `specialChars`,
and no whitespace at either end. -/
def Plain (s : List Char) : Prop :=
  (∀ c ∈ s, c ∉ specialChars) ∧
    (s.head?.all fun c => !isWhitespace c) = true ∧ (s.getLast?.all fun c => !isWhitespace c) = true

/-- What the round trip asks of a key besides: it is not empty and has no
dot at either end. -/
def PlainKey (k : List Char) : Prop := Plain k ∧ k ≠ [] ∧ k.head? ≠ some '.' ∧ k.getLast? ≠ some '.'

instance : DecidablePred Plain := fun s =>
  decidable_of_iff ((s.all fun c => !specialChars.contains c) = true ∧
      (s.head?.all fun c => !isWhitespace c) = true ∧ (s.getLast?.all fun c => !isWhitespace c) = true)
    (by simp [Plain, List.all_eq_true])

instance : DecidablePred PlainKey := fun _ => inferInstanceAs (Decidable (_ ∧ _ ∧ _ ∧ _))

/-- A list with given first and last elements is the one element, or has
them as two ends apart. -/
theorem eq_singleton_or_ends {c d : Char} {v : List Char} (head : v.head? = some c)
    (last : v.getLast? = some d) : (v = [c] ∧ c = d) ∨ ∃ u, v = [c] ++ u ++ [d] := by
  obtain ⟨w, rfl⟩ : ∃ w, v = c :: w := by
    cases v with
    | nil => cases head
    | cons x w => exact ⟨w, by rw [Option.some_inj.mp head]⟩
  rcases List.eq_nil_or_concat' w with rfl | ⟨u, e, rfl⟩
  · exact .inl ⟨rfl, by simpa using last⟩
  · have : e = d := by simpa [List.getLast?_cons] using last
    exact .inr ⟨u, by rw [this]; rfl⟩

/-- The slice `[1..len - 1]` of a string between one-byte ends: backwards
on a single character, the inside otherwise. -/
theorem slice_inside {c d : Char} (oneC : c.utf8Size = 1) (oneD : d.utf8Size = 1) {v : List Char}
    (head : v.head? = some c) (last : v.getLast? = some d) :
    (v = [c] ∧ c = d ∧ (Str.slice v 1 (Str.len v - 1) : Outcome (List Char) (List Char)) = .panic) ∨
      ∃ u, v = [c] ++ u ++ [d] ∧ (Str.slice v 1 (Str.len v - 1) : Outcome (List Char) (List Char)) = .ok u := by
  rcases eq_singleton_or_ends head last with ⟨rfl, same⟩ | ⟨u, rfl⟩
  · refine .inl ⟨rfl, same, Str.slice_of_lt ?_⟩
    simp [oneC]
  · refine .inr ⟨u, rfl, ?_⟩
    have ends : Str.len ([c] ++ u ++ [d]) - 1 = Str.len [c] + Str.len u := by
      simp [oneC, oneD]
      omega
    have start : (1 : Nat) = Str.len [c] := by simp [oneC]
    rw [ends, start]
    exact Str.slice_append [c] u [d]

/-! ### Values -/

theorem unquote_eq_panic_iff (v : List Char) : unquote v = .panic ↔ v = ['\x22'] ∨ v = ['\x27'] := by
  unfold unquote
  by_cases double : v.head? = some '\x22' ∧ v.getLast? = some '\x22'
  · rw [if_pos double]
    rcases slice_inside rfl rfl double.1 double.2 with ⟨rfl, -, panics⟩ | ⟨u, rfl, cut⟩
    · exact ⟨fun _ => .inl rfl, fun _ => panics⟩
    · rw [cut]
      simp
  · rw [if_neg double]
    by_cases single : v.head? = some '\x27' ∧ v.getLast? = some '\x27'
    · rw [if_pos single]
      rcases slice_inside rfl rfl single.1 single.2 with ⟨rfl, -, panics⟩ | ⟨u, rfl, cut⟩
      · exact ⟨fun _ => .inr rfl, fun _ => panics⟩
      · rw [cut]
        simp
    · rw [if_neg single]
      -- a lone quote starts and ends with itself, so it took one of the branches above
      refine ⟨nofun, ?_⟩
      rintro (rfl | rfl)
      · exact absurd ⟨rfl, rfl⟩ double
      · exact absurd ⟨rfl, rfl⟩ single

/-- `unquote` never fails: it cuts the quotes or panics. -/
theorem unquote_ok_or_panic (v : List Char) : unquote v = .panic ∨ ∃ w, unquote v = .ok w := by
  unfold unquote
  split
  · next double =>
    rcases slice_inside rfl rfl double.1 double.2 with ⟨-, -, panics⟩ | ⟨u, -, cut⟩
    · exact .inl panics
    · exact .inr ⟨u, cut⟩
  · split
    · next single =>
      rcases slice_inside rfl rfl single.1 single.2 with ⟨-, -, panics⟩ | ⟨u, -, cut⟩
      · exact .inl panics
      · exact .inr ⟨u, cut⟩
    · exact .inr ⟨v, rfl⟩

/-! ### Lines -/

section
variable (st : TomlState) (lineNum : Nat) (raw : List Char)

theorem parseLine_of_skipped (skip : Skipped (trim raw)) : parseLine st lineNum raw = .ok st := by
  dsimp only [parseLine]
  exact if_pos skip

/-- A header names the section of the lines after it. -/
theorem parseLine_of_header (keep : ¬ Skipped (trim raw)) (header : Header (trim raw)) :
    ∃ name, trim raw = ['['] ++ name ++ [']'] ∧
      parseLine st lineNum raw = .ok { st with currentSection := name } := by
  rcases slice_inside rfl rfl header.1 header.2 with ⟨-, apart, -⟩ | ⟨name, split, cut⟩
  · cases apart
  · refine ⟨name, split, ?_⟩
    dsimp only [parseLine]
    rw [if_neg keep, if_pos header, Outcome.bind_eq, cut, Outcome.ok_bind]
    rfl

/-- An assignment is read at its first `=`: the trimmed key, qualified by
the current section, is bound to the unquoted value. -/
theorem parseLine_of_assignment (keep : ¬ Skipped (trim raw)) (notHeader : ¬ Header (trim raw))
    {keyPart rest : List Char} (split : trim raw = keyPart ++ '=' :: rest) (first : '=' ∉ keyPart) :
    parseLine st lineNum raw = (unquote (trim rest)).bind fun value =>
      .ok { st with map := KeyMap.put (if st.currentSection = [] then trim keyPart
        else st.currentSection ++ '.' :: trim keyPart) value st.map } := by
  have found : Str.find? '=' (trim raw) = some (Str.len keyPart) := by
    rw [split]
    exact Str.find?_append_cons first rest
  have key : (Str.slice (trim raw) 0 (Str.len keyPart) : Outcome (List Char) (List Char)) = .ok keyPart := by
    rw [split]
    exact Str.slice_prefix keyPart ('=' :: rest)
  have value : (Str.slice (trim raw) (Str.len keyPart + 1) (Str.len (trim raw)) :
      Outcome (List Char) (List Char)) = .ok rest := by
    have after : Str.len keyPart + 1 = Str.len (keyPart ++ ['=']) := by
      rw [Str.len_append]
      rfl
    rw [split, after, show keyPart ++ '=' :: rest = (keyPart ++ ['=']) ++ rest by simp]
    exact Str.slice_suffix (keyPart ++ ['=']) rest
  dsimp only [parseLine]
  rw [if_neg keep, if_neg notHeader, found]
  simp only [Outcome.bind_eq, key, value, Outcome.ok_bind, Outcome.pure_eq_ok]

/-- A line that is none of the above is an error naming its number. -/
theorem parseLine_of_invalid (invalid : Invalid (trim raw)) :
    parseLine st lineNum raw =
      .err ("Invalid line ".toList ++ Nat.toDigits 10 (lineNum + 1) ++ ": ".toList ++ trim raw) := by
  obtain ⟨keep, notHeader, noEq⟩ := invalid
  dsimp only [parseLine]
  rw [if_neg keep, if_neg notHeader, Str.find?_eq_none noEq]

theorem valueAfterEq_of_split {keyPart rest : List Char} (first : '=' ∉ keyPart) :
    valueAfterEq (keyPart ++ '=' :: rest) = trim rest := by
  have skipped : ∀ x ∈ keyPart, decide (x ≠ '=') = true := by
    intro x mem
    simpa using fun same : x = '=' => first (same ▸ mem)
  rw [valueAfterEq, List.dropWhile_append_of_pos skipped, List.dropWhile_cons]
  simp

/-- A line panics exactly when it is an assignment of a lone quote. -/
theorem parseLine_eq_panic_iff : parseLine st lineNum raw = .panic ↔ LoneQuote (trim raw) := by
  by_cases skip : Skipped (trim raw)
  · rw [parseLine_of_skipped st lineNum raw skip]
    exact ⟨nofun, fun lone => absurd skip lone.1⟩
  by_cases header : Header (trim raw)
  · obtain ⟨name, -, read⟩ := parseLine_of_header st lineNum raw skip header
    rw [read]
    exact ⟨nofun, fun lone => absurd header lone.2.1⟩
  by_cases eq : '=' ∈ trim raw
  · obtain ⟨keyPart, rest, split, first⟩ := Str.exists_first_of_mem eq
    rw [parseLine_of_assignment st lineNum raw skip header split first, Outcome.bind_eq_panic]
    have lone : LoneQuote (trim raw) ↔ trim rest = ['\x22'] ∨ trim rest = ['\x27'] := by
      rw [LoneQuote, split, valueAfterEq_of_split first, ← split]
      exact ⟨fun lone => lone.2.2.2, fun quote => ⟨skip, header, eq, quote⟩⟩
    rw [lone, ← unquote_eq_panic_iff]
    simp
  · rw [parseLine_of_invalid st lineNum raw ⟨skip, header, eq⟩]
    exact ⟨nofun, fun lone => absurd lone.2.2.1 eq⟩

/-- A line that neither panics nor is rejected moves the state on. -/
theorem parseLine_ok (fine : ¬ LoneQuote (trim raw)) (valid : ¬ Invalid (trim raw)) :
    ∃ st', parseLine st lineNum raw = .ok st' := by
  by_cases skip : Skipped (trim raw)
  · exact ⟨st, parseLine_of_skipped st lineNum raw skip⟩
  by_cases header : Header (trim raw)
  · obtain ⟨name, -, read⟩ := parseLine_of_header st lineNum raw skip header
    exact ⟨_, read⟩
  have eq : '=' ∈ trim raw := Decidable.of_not_not fun noEq => valid ⟨skip, header, noEq⟩
  obtain ⟨keyPart, rest, split, first⟩ := Str.exists_first_of_mem eq
  rw [parseLine_of_assignment st lineNum raw skip header split first]
  rcases unquote_ok_or_panic (trim rest) with panics | ⟨w, cut⟩
  · exact absurd ((parseLine_eq_panic_iff st lineNum raw).mp (by
      rw [parseLine_of_assignment st lineNum raw skip header split first, panics]; rfl)) fine
  · exact ⟨_, by rw [cut]; rfl⟩

end

/-! ## Totality -/

/-- The first line with `Bad` after lines with `Good`, as a split. -/
theorem exists_first_bad_cons {α : Type} (Good Bad : α → Prop) (x : α) (rest : List α) :
    (∃ pre bad post, x :: rest = pre ++ bad :: post ∧ (∀ l ∈ pre, Good l) ∧ Bad bad) ↔
      Bad x ∨ (Good x ∧ ∃ pre bad post, rest = pre ++ bad :: post ∧ (∀ l ∈ pre, Good l) ∧ Bad bad) := by
  constructor
  · rintro ⟨pre, bad, post, split, good, isBad⟩
    cases pre with
    | nil =>
      obtain ⟨rfl, -⟩ := List.cons.inj split
      exact .inl isBad
    | cons y pre =>
      obtain ⟨rfl, rfl⟩ := List.cons.inj split
      exact .inr ⟨good x List.mem_cons_self, pre, bad, post, rfl,
        fun l mem => good l (List.mem_cons_of_mem x mem), isBad⟩
  · rintro (isBad | ⟨goodX, pre, bad, post, rfl, good, isBad⟩)
    · exact ⟨[], x, rest, rfl, fun _ mem => (nomatch mem), isBad⟩
    · refine ⟨x :: pre, bad, post, rfl, fun l mem => ?_, isBad⟩
      rcases List.mem_cons.mp mem with rfl | later
      · exact goodX
      · exact good l later

/-- The loop panics exactly at a lone-quote assignment that no rejected
line comes before. -/
theorem parseLines_eq_panic_iff (st : TomlState) (lineNum : Nat) (ls : List (List Char)) :
    parseLines st lineNum ls = .panic ↔ ∃ pre bad post, ls = pre ++ bad :: post ∧
      (∀ l ∈ pre, ¬ LoneQuote (trim l) ∧ ¬ Invalid (trim l)) ∧ LoneQuote (trim bad) := by
  induction ls generalizing st lineNum with
  | nil =>
    refine ⟨nofun, ?_⟩
    rintro ⟨pre, bad, post, split, -⟩
    cases pre <;> cases split
  | cons raw rest ih =>
    rw [exists_first_bad_cons, parseLines, Outcome.bind_eq_panic, parseLine_eq_panic_iff]
    by_cases lone : LoneQuote (trim raw)
    · simp [lone]
    by_cases invalid : Invalid (trim raw)
    · rw [parseLine_of_invalid st lineNum raw invalid]
      simp [lone, invalid]
    obtain ⟨st', read⟩ := parseLine_ok st lineNum raw lone invalid
    rw [read]
    simp [lone, invalid, ih]

/-- `parse_toml` panics exactly when, before any line it rejects, a line
is an assignment of a lone quote. -/
theorem parseToml_eq_panic_iff (content : List Char) :
    parseToml content = .panic ↔ ∃ pre bad post, Text.lines content = pre ++ bad :: post ∧
      (∀ l ∈ pre, ¬ LoneQuote (trim l) ∧ ¬ Invalid (trim l)) ∧ LoneQuote (trim bad) := by
  rw [parseToml, Outcome.bind_eq_panic, ← parseLines_eq_panic_iff ⟨[], []⟩ 0]
  simp

theorem parseToml_panics_on_lone_quote : parseToml "a = \x22".toList = .panic := by
  decide

/-! ## The round trip

Two maps the format can carry that do not come back; `Pm.TomlRoundTrip`
shows that every map and order avoiding both ways of failing does. -/

theorem serializeToml_roundtrip_fails :
    (PlainKey "a.b".toList ∧ Plain "1".toList ∧ PlainKey "c".toList ∧ Plain "2".toList) ∧
      (KeyMap.keys (sectionsOf [("a.b".toList, "1".toList), ("c".toList, "2".toList)])).Perm
        ["a".toList, []] ∧
      parseToml (serializeToml [("a.b".toList, "1".toList), ("c".toList, "2".toList)] ["a".toList, []]) =
        .ok [("a.c".toList, "2".toList), ("a.b".toList, "1".toList)] ∧
      (PlainKey "a. b".toList ∧ Plain "1".toList) ∧
      KeyMap.keys (sectionsOf [("a. b".toList, "1".toList)]) = ["a".toList] ∧
      parseToml (serializeToml [("a. b".toList, "1".toList)] ["a".toList]) =
        .ok [("a.b".toList, "1".toList)] := by
  -- each part is a run on a fixed input, evaluated on its own
  refine ⟨by decide, by decide, by decide, by decide, by decide, by decide⟩

end OspabOs.Pm
