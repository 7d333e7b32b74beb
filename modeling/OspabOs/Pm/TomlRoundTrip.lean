import OspabOs.Pm.Toml

/-!
# When the TOML round trip holds

`serializeToml_roundtrip_fails` shows the two ways `parse_toml` misreads
what `serialize_toml` writes. Here is the converse: with neither of them,
the round trip holds for every map and every order of its sections.
`serialize_toml` writes each section's keys under its header, and the
parser reads each assignment back under the open section. That gives every
key back when the section `""` of the keys without a dot, if there is one,
is written first, and no key has whitespace right after its first dot
(`parseToml_serializeToml`).

The proof follows the two halves of the parser: the output splits into
the lines the writer wrote (`lines_serializeToml`), and each kind of line,
header, assignment and blank, does to the state what the writer meant
(`parseLine_headerLine`, `parseLine_assignmentLine`, `parseLine_blank`).
A section's lines then read as one `sectionStep`, and the sections in turn
put exactly the map's entries (`mem_sectionPairs`), each under its own key.
-/

namespace OspabOs.Pm

open Text (trim isWhitespace)

/-! ## The output, line by line -/

/-- A key whose subkey, what follows its first dot, starts with no
whitespace. -/
def SubkeyTrimmed (key : List Char) : Prop := ((splitKey key).2.head?.all fun c => !isWhitespace c) = true

/-- The subkeys and values `serialize_toml` writes under the section `name`. -/
def grouped (name : List Char) (entries : List (List Char × List Char)) : List (List Char × List Char) :=
  (entries.filter fun e => (splitKey e.1).1 = name).map fun e => ((splitKey e.1).2, e.2)

/-- The key the parser reads a subkey under in the section `sec`. -/
def qualify (sec sub : List Char) : List Char := if sec = [] then sub else sec ++ '.' :: sub

/-- An assignment line as `serialize_toml` writes it, without its newline. -/
def assignmentLine (key value : List Char) : List Char := key ++ " = ".toList ++ '\x22' :: value ++ ['\x22']

/-- The lines of one section, without their newlines. -/
def sectionLines (name : List Char) (keys : List (List Char × List Char)) : List (List Char) :=
  (if name = [] then [] else ['[' :: name ++ [']']]) ++ keys.map (fun kv => assignmentLine kv.1 kv.2) ++ [[]]

/-- Reading a section's lines: its header, if it has one, opens it, and
each key is put under the open section. -/
def sectionStep (st : TomlState) (name : List Char) (keys : List (List Char × List Char)) : TomlState :=
  let sec := if name = [] then st.currentSection else name
  ⟨(keys.map fun kv => (qualify sec kv.1, kv.2)).foldl (fun m p => KeyMap.put p.1 p.2 m) st.map, sec⟩

/-- What an assignment line asks of the subkey it starts with. -/
structure Subkey (sub : List Char) : Prop where
  ne_nil : sub ≠ []
  first : (sub.head?.all fun c => !isWhitespace c) = true
  last : (sub.getLast?.all fun c => !isWhitespace c) = true
  plain : ∀ c ∈ sub, c ∉ specialChars

/-! ### The sections map -/

theorem grouped_cons (name : List Char) (e : List Char × List Char) (rest : List (List Char × List Char)) :
    grouped name (e :: rest) =
      if (splitKey e.1).1 = name then ((splitKey e.1).2, e.2) :: grouped name rest else grouped name rest := by
  unfold grouped
  by_cases same : (splitKey e.1).1 = name
  · simp [same]
  · simp [same]

theorem get?_pushEntry (sections : List (List Char × List (List Char × List Char))) (entry : List Char × List Char)
    (name : List Char) :
    KeyMap.get? name (pushEntry sections entry) =
      if name = (splitKey entry.1).1 then
        some ((KeyMap.get? name sections).getD [] ++ [((splitKey entry.1).2, entry.2)])
      else KeyMap.get? name sections := by
  unfold pushEntry
  split
  · next v found =>
    rw [KeyMap.get?_modify]
    by_cases same : name = (splitKey entry.1).1
    · rw [if_pos same, if_pos same, same, found]
      rfl
    · rw [if_neg same, if_neg same]
  · next missing =>
    rw [KeyMap.get?_put]
    by_cases same : name = (splitKey entry.1).1
    · rw [if_pos same, if_pos same, same, missing]
      rfl
    · rw [if_neg same, if_neg same]

/-- Each push appends to the vector of its own section. -/
theorem getD_foldl_pushEntry (name : List Char) (entries : List (List Char × List Char))
    (sections : List (List Char × List (List Char × List Char))) :
    (KeyMap.get? name (entries.foldl pushEntry sections)).getD [] =
      (KeyMap.get? name sections).getD [] ++ grouped name entries := by
  induction entries generalizing sections with
  | nil => simp [grouped]
  | cons e rest ih =>
    rw [List.foldl_cons, ih, get?_pushEntry, grouped_cons]
    by_cases same : name = (splitKey e.1).1
    · rw [if_pos same, if_pos same.symm, Option.getD_some, List.append_assoc, List.singleton_append]
    · rw [if_neg same, if_neg (Ne.symm same)]

theorem getD_sectionsOf (name : List Char) (entries : List (List Char × List Char)) :
    (KeyMap.get? name (sectionsOf entries)).getD [] = grouped name entries := by
  rw [sectionsOf, getD_foldl_pushEntry]
  rfl

theorem isSome_foldl_pushEntry (name : List Char) (entries : List (List Char × List Char))
    (sections : List (List Char × List (List Char × List Char))) :
    (KeyMap.get? name (entries.foldl pushEntry sections)).isSome ↔
      (KeyMap.get? name sections).isSome ∨ ∃ e ∈ entries, (splitKey e.1).1 = name := by
  induction entries generalizing sections with
  | nil => simp
  | cons e rest ih =>
    rw [List.foldl_cons, ih, get?_pushEntry]
    by_cases same : name = (splitKey e.1).1
    · rw [if_pos same]
      exact ⟨fun _ => .inr ⟨e, List.mem_cons_self, same.symm⟩, fun _ => .inl rfl⟩
    · rw [if_neg same]
      constructor
      · rintro (present | ⟨e', mem, named⟩)
        · exact .inl present
        · exact .inr ⟨e', List.mem_cons_of_mem e mem, named⟩
      · rintro (present | ⟨e', mem, named⟩)
        · exact .inl present
        · rcases List.mem_cons.mp mem with rfl | later
          · exact absurd named.symm same
          · exact .inr ⟨e', later, named⟩

theorem mem_keys_sectionsOf {name : List Char} {entries : List (List Char × List Char)} :
    name ∈ KeyMap.keys (sectionsOf entries) ↔ ∃ e ∈ entries, (splitKey e.1).1 = name := by
  rw [← KeyMap.isSome_get?_iff, sectionsOf, isSome_foldl_pushEntry]
  simp

/-- The sections map has each section once. -/
theorem nodup_keys_sectionsOf (entries : List (List Char × List Char)) :
    (KeyMap.keys (sectionsOf entries)).Nodup := by
  suffices kept : ∀ sections, (KeyMap.keys sections).Nodup → (KeyMap.keys (entries.foldl pushEntry sections)).Nodup from
    kept [] List.nodup_nil
  induction entries with
  | nil => exact fun _ nodup => nodup
  | cons e rest ih =>
    intro sections nodup
    apply ih
    unfold pushEntry
    split
    · rw [KeyMap.keys_modify]
      exact nodup
    · exact KeyMap.nodup_keys_put nodup _ _

/-! ### Keys cut at their first dot and joined back -/

theorem qualify_splitKey {key : List Char} (named : key ≠ []) (noDot : key.head? ≠ some '.') :
    qualify (splitKey key).1 (splitKey key).2 = key := by
  unfold splitKey
  by_cases dotted : '.' ∈ key
  · rw [if_pos dotted]
    obtain ⟨c, rest, rfl⟩ := List.exists_cons_of_ne_nil named
    have first : c ≠ '.' := fun same => noDot (by rw [same]; rfl)
    -- the part before the dot keeps `c`, and what the dot starts is `'.'` and the subkey
    have before : (c :: rest).takeWhile (· ≠ '.') ≠ [] := by simp [first]
    have atDot : ∃ after, (c :: rest).dropWhile (· ≠ '.') = '.' :: after := by
      obtain ⟨a, after, split, absent⟩ := Str.exists_first_of_mem dotted
      refine ⟨after, ?_⟩
      rw [split, List.dropWhile_append_of_pos (fun x mem => by simpa using fun same : x = '.' => absent (same ▸ mem)),
        List.dropWhile_cons]
      simp
    obtain ⟨after, dropped⟩ := atDot
    unfold qualify
    rw [if_neg before, dropped, List.drop_one, List.tail_cons, ← dropped, List.takeWhile_append_dropWhile]
  · rw [if_neg dotted]
    rfl

theorem suffix_splitKey_snd (key : List Char) : (splitKey key).2 <:+ key := by
  unfold splitKey
  split
  · exact (List.drop_suffix 1 _).trans (List.dropWhile_suffix _)
  · exact List.suffix_refl key

theorem prefix_splitKey_fst (key : List Char) : (splitKey key).1 <+: key := by
  unfold splitKey
  split
  · exact List.takeWhile_prefix _
  · exact List.nil_prefix

/-- The subkey of a key with no dot at either end is a `Subkey` once its
front is trimmed. -/
theorem subkey_splitKey {key : List Char} (plain : PlainKey key) (trimmed : SubkeyTrimmed key) :
    Subkey (splitKey key).2 := by
  obtain ⟨⟨chars, -, last⟩, named, noFirstDot, noLastDot⟩ := plain
  obtain ⟨front, split⟩ := suffix_splitKey_snd key
  have sub : (splitKey key).2 ≠ [] := by
    intro empty
    unfold splitKey at empty
    split at empty
    · next dotted =>
      -- the first dot is the last character
      obtain ⟨a, after, cut, absent⟩ := Str.exists_first_of_mem dotted
      have dropped : key.dropWhile (· ≠ '.') = '.' :: after := by
        rw [cut, List.dropWhile_append_of_pos (fun x mem => by simpa using fun same : x = '.' => absent (same ▸ mem)),
          List.dropWhile_cons]
        simp
      have nothingAfter : after = [] := by rwa [dropped, List.drop_one, List.tail_cons] at empty
      exact noLastDot (by rw [cut, nothingAfter, List.getLast?_concat])
    · exact named (by simpa using empty)
  refine ⟨sub, trimmed, ?_, fun c mem => chars c (split ▸ List.mem_append_right front mem)⟩
  rw [← split, List.getLast?_append_of_ne_nil _ sub] at last
  exact last

/-! ### The written lines -/

theorem sectionText_eq (name : List Char) (keys : List (List Char × List Char)) :
    sectionText name keys = (sectionLines name keys).flatMap (· ++ ['\n']) := by
  unfold sectionText sectionLines
  by_cases empty : name = [] <;> simp [empty, assignment, assignmentLine, List.flatMap_map]

theorem serializeToml_eq (entries : List (List Char × List Char)) (order : List (List Char)) :
    serializeToml entries order =
      (order.flatMap fun name => sectionLines name (grouped name entries)).flatMap (· ++ ['\n']) := by
  simp only [serializeToml, getD_sectionsOf, sectionText_eq, List.flatMap_assoc]

/-- No written line holds a newline or ends in a carriage return. -/
theorem sectionLines_clean {name : List Char} {keys : List (List Char × List Char)} (nameClean : '\n' ∉ name)
    (keysClean : ∀ kv ∈ keys, '\n' ∉ kv.1 ∧ '\n' ∉ kv.2) :
    ∀ l ∈ sectionLines name keys, '\n' ∉ l ∧ l.getLast? ≠ some '\r' := by
  intro l mem
  unfold sectionLines at mem
  simp only [List.mem_append, List.mem_map, List.mem_singleton] at mem
  rcases mem with (header | ⟨kv, inKeys, rfl⟩) | rfl
  · split at header
    · cases header
    · rcases List.mem_singleton.mp header with rfl
      exact ⟨by simp [nameClean], by rw [List.getLast?_concat]; decide⟩
  · obtain ⟨keyClean, valueClean⟩ := keysClean kv inKeys
    exact ⟨by simp [assignmentLine, keyClean, valueClean], by rw [assignmentLine, List.getLast?_concat]; decide⟩
  · simp

/-! ### Reading the lines back -/

theorem unquote_quoted (v : List Char) : unquote ('\x22' :: v ++ ['\x22']) = .ok v := by
  unfold unquote
  have ends : ('\x22' :: v ++ ['\x22']).head? = some '\x22' ∧ ('\x22' :: v ++ ['\x22']).getLast? = some '\x22' :=
    ⟨rfl, List.getLast?_concat⟩
  rw [if_pos ends]
  rcases slice_inside rfl rfl ends.1 ends.2 with ⟨lone, -, -⟩ | ⟨u, same, cut⟩
  · simp at lone
  · have : u = v := by simpa using same.symm
    rw [cut, this]

theorem parseLine_blank (st : TomlState) (lineNum : Nat) : parseLine st lineNum [] = .ok st :=
  parseLine_of_skipped st lineNum [] (.inl rfl)

theorem parseLine_headerLine (st : TomlState) (lineNum : Nat) (name : List Char) :
    parseLine st lineNum ('[' :: name ++ [']']) = .ok { st with currentSection := name } := by
  have trimmed : trim ('[' :: name ++ [']']) = '[' :: name ++ [']'] := Text.trim_enclosed (by decide) (by decide) name
  have keep : ¬ Skipped (trim ('[' :: name ++ [']'])) := by
    rw [trimmed]
    simp [Skipped]
  have header : Header (trim ('[' :: name ++ [']'])) := by
    rw [trimmed]
    exact ⟨rfl, List.getLast?_concat⟩
  obtain ⟨name', split, read⟩ := parseLine_of_header st lineNum _ keep header
  rw [trimmed] at split
  have same : name' = name := by simpa using split.symm
  rw [read, same]

theorem parseLine_assignmentLine (st : TomlState) (lineNum : Nat) {sub : List Char} (fine : Subkey sub)
    (v : List Char) :
    parseLine st lineNum (assignmentLine sub v) =
      .ok { st with map := KeyMap.put (qualify st.currentSection sub) v st.map } := by
  obtain ⟨c, rest, rfl⟩ := List.exists_cons_of_ne_nil fine.ne_nil
  have special : ∀ x ∈ specialChars, x ∉ c :: rest := fun x special mem => fine.plain x mem special
  have noEq : '=' ∉ c :: rest := special '=' (by decide)
  have lead : isWhitespace c = false := by simpa using fine.first
  have trimmed : trim (assignmentLine (c :: rest) v) = assignmentLine (c :: rest) v := by
    have shape : assignmentLine (c :: rest) v = c :: (rest ++ " = ".toList ++ '\x22' :: v) ++ ['\x22'] := by
      simp [assignmentLine]
    rw [shape, Text.trim_enclosed lead (by decide)]
  have keep : ¬ Skipped (trim (assignmentLine (c :: rest) v)) := by
    rw [trimmed]
    rintro (empty | comment)
    · simp [assignmentLine] at empty
    · simp only [assignmentLine, List.cons_append, List.head?_cons, Option.some.injEq] at comment
      exact special '#' (by decide) (comment ▸ List.mem_cons_self)
  have notHeader : ¬ Header (trim (assignmentLine (c :: rest) v)) := by
    rw [trimmed]
    rintro ⟨bracket, -⟩
    simp only [assignmentLine, List.cons_append, List.head?_cons, Option.some.injEq] at bracket
    exact special '[' (by decide) (bracket ▸ List.mem_cons_self)
  -- the first `=` is the one the writer put after the subkey and a space
  have split : trim (assignmentLine (c :: rest) v) = ((c :: rest) ++ [' ']) ++ '=' :: (' ' :: '\x22' :: v ++ ['\x22']) := by
    rw [trimmed, assignmentLine, show " = ".toList = [' ', '=', ' '] from rfl]
    simp
  have first : '=' ∉ (c :: rest) ++ [' '] := by
    simp only [List.mem_append, List.mem_singleton]
    rintro (inSub | space)
    · exact noEq inSub
    · exact absurd space (by decide)
  have keyPart : trim ((c :: rest) ++ [' ']) = c :: rest := @Text.trim_append [] (c :: rest) [' '] nofun
    (by simp; decide) fine.first fine.last
  have valuePart : trim (' ' :: '\x22' :: v ++ ['\x22']) = '\x22' :: v ++ ['\x22'] := by
    have ends := @Text.trim_append [' '] ('\x22' :: v ++ ['\x22']) [] (by simp; decide) nofun
      (by simp; decide) (by rw [List.getLast?_concat]; decide)
    simpa using ends
  rw [parseLine_of_assignment st lineNum _ keep notHeader split first, keyPart, valuePart, unquote_quoted]
  rfl

theorem parseLines_append (st : TomlState) (lineNum : Nat) (l₁ l₂ : List (List Char)) :
    parseLines st lineNum (l₁ ++ l₂) =
      (parseLines st lineNum l₁).bind fun st' => parseLines st' (lineNum + l₁.length) l₂ := by
  induction l₁ generalizing st lineNum with
  | nil => rfl
  | cons raw rest ih =>
    rw [List.cons_append, parseLines, parseLines, Outcome.bind_assoc]
    congr 1
    funext st'
    rw [ih, List.length_cons, Nat.add_assoc, Nat.add_comm 1]

/-- The assignment lines of a section, read under the open section. -/
theorem parseLines_assignments (st : TomlState) (lineNum : Nat) {keys : List (List Char × List Char)}
    (fine : ∀ kv ∈ keys, Subkey kv.1) :
    parseLines st lineNum (keys.map fun kv => assignmentLine kv.1 kv.2) =
      .ok ⟨(keys.map fun kv => (qualify st.currentSection kv.1, kv.2)).foldl
        (fun m p => KeyMap.put p.1 p.2 m) st.map, st.currentSection⟩ := by
  induction keys generalizing st lineNum with
  | nil => rfl
  | cons kv rest ih =>
    rw [List.map_cons, parseLines, parseLine_assignmentLine st lineNum (fine kv List.mem_cons_self),
      Outcome.ok_bind, ih _ _ (fun kv' mem => fine kv' (List.mem_cons_of_mem kv mem))]
    rfl

theorem parseLines_sectionLines (st : TomlState) (lineNum : Nat) (name : List Char)
    {keys : List (List Char × List Char)} (fine : ∀ kv ∈ keys, Subkey kv.1) :
    parseLines st lineNum (sectionLines name keys) = .ok (sectionStep st name keys) := by
  unfold sectionLines
  rw [parseLines_append, parseLines_append]
  by_cases empty : name = []
  · simp only [if_pos empty, parseLines, Outcome.ok_bind, parseLines_assignments st _ fine, parseLine_blank,
      sectionStep]
  · simp only [if_neg empty, parseLines, parseLine_headerLine, Outcome.ok_bind,
      parseLines_assignments _ _ fine, parseLine_blank, sectionStep]

/-- The sections read one after another. -/
theorem parseLines_sections (groups : List Char → List (List Char × List Char)) {names : List (List Char)}
    (fine : ∀ name ∈ names, ∀ kv ∈ groups name, Subkey kv.1) (st : TomlState) (lineNum : Nat) :
    parseLines st lineNum (names.flatMap fun name => sectionLines name (groups name)) =
      .ok (names.foldl (fun st name => sectionStep st name (groups name)) st) := by
  induction names generalizing st lineNum with
  | nil => rfl
  | cons name rest ih =>
    rw [List.flatMap_cons, parseLines_append, parseLines_sectionLines st lineNum name (fine name List.mem_cons_self),
      Outcome.ok_bind, ih (fun name' mem => fine name' (List.mem_cons_of_mem name mem)), List.foldl_cons]

/-- Sections read with a header each put their keys under their own name. -/
theorem foldl_sectionStep_map (groups : List Char → List (List Char × List Char)) {names : List (List Char)}
    (named : ∀ name ∈ names, name ≠ []) (st : TomlState) :
    (names.foldl (fun st name => sectionStep st name (groups name)) st).map =
      (names.flatMap fun name => (groups name).map fun kv => (qualify name kv.1, kv.2)).foldl
        (fun m p => KeyMap.put p.1 p.2 m) st.map := by
  induction names generalizing st with
  | nil => rfl
  | cons name rest ih =>
    rw [List.foldl_cons, ih (fun name' mem => named name' (List.mem_cons_of_mem name mem)), List.flatMap_cons,
      List.foldl_append]
    simp only [sectionStep, if_neg (named name List.mem_cons_self)]

/-- The pairs put while reading the sections are the map's entries whose
section is written. -/
theorem mem_sectionPairs {entries : List (List Char × List Char)} {order : List (List Char)}
    (joins : ∀ e ∈ entries, qualify (splitKey e.1).1 (splitKey e.1).2 = e.1) {p : List Char × List Char} :
    p ∈ (order.flatMap fun name => (grouped name entries).map fun kv => (qualify name kv.1, kv.2)) ↔
      p ∈ entries ∧ (splitKey p.1).1 ∈ order := by
  simp only [List.mem_flatMap, grouped, List.map_map, List.mem_map, List.mem_filter, decide_eq_true_eq,
    Function.comp_def]
  constructor
  · rintro ⟨name, inOrder, e, ⟨mem, rfl⟩, rfl⟩
    rw [joins e mem]
    exact ⟨mem, inOrder⟩
  · rintro ⟨mem, inOrder⟩
    exact ⟨_, inOrder, p, ⟨mem, rfl⟩, by rw [joins p mem]⟩

/-- Every subkey and value written under a section comes from an entry of
that section. -/
theorem exists_of_mem_grouped {name : List Char} {entries : List (List Char × List Char)}
    {kv : List Char × List Char} (mem : kv ∈ grouped name entries) :
    ∃ e ∈ entries, (splitKey e.1).1 = name ∧ kv = ((splitKey e.1).2, e.2) := by
  simp only [grouped, List.mem_map, List.mem_filter, decide_eq_true_eq] at mem
  obtain ⟨e, ⟨inEntries, named⟩, rfl⟩ := mem
  exact ⟨e, inEntries, named, rfl⟩

/-- With the section `""`, if written, written first, reading the sections
puts every written pair in turn from the empty map: the keys without a dot
are read while no section is open. -/
theorem foldl_sectionStep_top_first (groups : List Char → List (List Char × List Char))
    {names : List (List Char)} (once : names.Nodup) (topFirst : [] ∈ names → names.head? = some []) :
    (names.foldl (fun st name => sectionStep st name (groups name)) ⟨[], []⟩).map =
      (names.flatMap fun name => (groups name).map fun kv => (qualify name kv.1, kv.2)).foldl
        (fun m p => KeyMap.put p.1 p.2 m) [] := by
  by_cases top : [] ∈ names
  · cases names with
    | nil => cases top
    | cons first rest =>
      have isTop : first = [] := by simpa using topFirst top
      subst isTop
      have named : ∀ name ∈ rest, name ≠ [] := fun name mem same => (List.nodup_cons.mp once).1 (same ▸ mem)
      rw [List.foldl_cons, foldl_sectionStep_map _ named, List.flatMap_cons, List.foldl_append]
      rfl
  · exact foldl_sectionStep_map _ (fun name mem same => top (same ▸ mem)) _

section RoundTrip

variable {entries : List (List Char × List Char)}
  (plain : ∀ e ∈ entries, PlainKey e.1 ∧ Plain e.2 ∧ SubkeyTrimmed e.1)
include plain

theorem subkey_of_mem_grouped {name : List Char} {kv : List Char × List Char} (mem : kv ∈ grouped name entries) :
    Subkey kv.1 := by
  obtain ⟨e, inEntries, -, rfl⟩ := exists_of_mem_grouped mem
  exact subkey_splitKey (plain e inEntries).1 (plain e inEntries).2.2

/-- `parse_toml` splits the output into the lines `serialize_toml` wrote:
no key or value holds a newline. -/
theorem lines_serializeToml {order : List (List Char)} (written : ∀ name ∈ order, ∃ e ∈ entries, (splitKey e.1).1 = name) :
    Text.lines (serializeToml entries order) = order.flatMap fun name => sectionLines name (grouped name entries) := by
  have newline : '\n' ∈ specialChars := by decide
  have clean : ∀ l ∈ order.flatMap (fun name => sectionLines name (grouped name entries)),
      '\n' ∉ l ∧ l.getLast? ≠ some '\r' := by
    intro l mem
    obtain ⟨name, inOrder, inSection⟩ := List.mem_flatMap.mp mem
    obtain ⟨e, inEntries, rfl⟩ := written name inOrder
    apply sectionLines_clean _ _ l inSection
    · exact fun inName => (plain e inEntries).1.1.1 '\n' ((prefix_splitKey_fst e.1).subset inName) newline
    · intro kv kvMem
      obtain ⟨e', inEntries', -, rfl⟩ := exists_of_mem_grouped kvMem
      exact ⟨fun inSub => (plain e' inEntries').1.1.1 '\n' ((suffix_splitKey_snd e'.1).subset inSub) newline,
        fun inValue => (plain e' inEntries').2.1.1 '\n' inValue newline⟩
  rw [serializeToml_eq]
  exact Text.lines_flatMap_newline (fun l mem => (clean l mem).1) (fun l mem => (clean l mem).2)

/-- The round trip holds when the keys with no dot are written first and no
key has whitespace right after its first dot: `parse_toml` then reads back
a map with the same lookups. -/
theorem parseToml_serializeToml (distinct : (KeyMap.keys entries).Nodup)
    {order : List (List Char)} (sections : order.Perm (KeyMap.keys (sectionsOf entries)))
    (topFirst : [] ∈ order → order.head? = some []) :
    ∃ r, parseToml (serializeToml entries order) = .ok r ∧ ∀ k, KeyMap.get? k r = KeyMap.get? k entries := by
  have joins : ∀ e ∈ entries, qualify (splitKey e.1).1 (splitKey e.1).2 = e.1 := fun e mem =>
    qualify_splitKey (plain e mem).1.2.1 (plain e mem).1.2.2.1
  have inOrder : ∀ e ∈ entries, (splitKey e.1).1 ∈ order := fun e mem =>
    sections.mem_iff.mpr (mem_keys_sectionsOf.mpr ⟨e, mem, rfl⟩)
  have written : ∀ name ∈ order, ∃ e ∈ entries, (splitKey e.1).1 = name := fun name mem =>
    mem_keys_sectionsOf.mp (sections.mem_iff.mp mem)
  have read : parseToml (serializeToml entries order) =
      .ok (order.foldl (fun st name => sectionStep st name (grouped name entries)) ⟨[], []⟩).map := by
    rw [parseToml, lines_serializeToml plain written,
      parseLines_sections _ (fun _ _ _ mem => subkey_of_mem_grouped plain mem), Outcome.ok_bind]
  refine ⟨_, read, fun k => ?_⟩
  -- the pairs put are exactly the entries, each under its own key
  have same : ∀ p, p ∈ (order.flatMap fun name => (grouped name entries).map fun kv => (qualify name kv.1, kv.2)) ↔
      p ∈ entries :=
    fun p => (mem_sectionPairs joins).trans ⟨And.left, fun mem => ⟨mem, inOrder p mem⟩⟩
  rw [foldl_sectionStep_top_first _ (sections.nodup_iff.mpr (nodup_keys_sectionsOf entries)) topFirst]
  exact KeyMap.get?_foldl_put_of_mem_iff distinct same k

end RoundTrip

end OspabOs.Pm
