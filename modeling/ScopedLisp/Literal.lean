import ScopedLisp.Failure

/-!
# Characters with a spelling of their own

Inside a string literal some characters are written as a backslash and a letter, and after `#\`
some characters have a name. Reading and printing have tables of their own, one by the spelling and
one by the character. The tables agree: what one of them holds the other holds the other way round
(`lookup_escapes_iff`, `lookup_characterNames_iff`), so reading undoes printing.
-/

namespace ScopedLisp.Literal

/-! ### Reading -/

/-- The letters that follow a backslash and what they stand for. -/
def escapes : List (Char × Char) :=
  [('n', '\n'), ('t', '\t'), ('r', '\r'), ('0', '\x00'), ('\\', '\\'), ('\x22', '\x22')]

/-- The text that the inside of a string literal denotes. A backslash at the very end stands for
itself. -/
def unescape : List Char → Except SourceDefect (List Char)
  | [] => .ok []
  | '\\' :: letter :: rest =>
    match escapes.lookup letter with
    | some c => (unescape rest).map (c :: ·)
    | none => .error (.unknownEscape letter)
  | c :: rest => (unescape rest).map (c :: ·)

/-- The names that characters are read by. -/
def characterNames : List (String × String) :=
  [("space", " "), ("newline", "\n"), ("tab", "\t"), ("return", "\r"), ("nul", "\x00")]

/-- The character of a name. The case of the letters A to Z does not matter, and no character
outside that range has a letter of these names for its lower case. -/
def characterOfName? (name : String) : Option String :=
  characterNames.lookup (String.ofList (name.toList.map Char.toLower))

/-! ### Printing -/

/-- The characters that are printed as a backslash and a letter, and their letters. -/
def escapeLetters : List (Char × Char) :=
  [('\\', '\\'), ('\x22', '\x22'), ('\n', 'n'), ('\t', 't'), ('\r', 'r'), ('\x00', '0')]

/-- One character inside a string literal. -/
def escapeChar (c : Char) : List Char :=
  match escapeLetters.lookup c with
  | some letter => ['\\', letter]
  | none => [c]

/-- The inside of the string literal that denotes the text. -/
def escape (cs : List Char) : List Char := cs.flatMap escapeChar

/-- The string literal that denotes the text. -/
def ofText (text : String) : String :=
  String.ofList ('\x22' :: escape text.toList ++ ['\x22'])

/-- The characters that are printed by a name, and their names. -/
def namedCharacters : List (String × String) :=
  [(" ", "space"), ("\n", "newline"), ("\t", "tab"), ("\r", "return"), ("\x00", "nul")]

/-- What follows `#\` in the literal that denotes the character. -/
def characterName (c : String) : String := (namedCharacters.lookup c).getD c

/-! ### The tables agree -/

theorem mem_of_lookup {α β : Type} [BEq α] [LawfulBEq α] {table : List (α × β)} {a : α} {b : β}
    (found : table.lookup a = some b) : (a, b) ∈ table := by
  obtain ⟨before, after, shape, -⟩ := List.lookup_eq_some_iff.mp found
  rw [shape]
  exact List.mem_append_right before List.mem_cons_self

/-- Two tables of which each holds the entries of the other, turned round. -/
theorem lookup_iff_of_turned {α β : Type} [BEq α] [LawfulBEq α] [BEq β] [LawfulBEq β]
    {table : List (α × β)} {turned : List (β × α)}
    (there : ∀ entry ∈ table, turned.lookup entry.2 = some entry.1)
    (back : ∀ entry ∈ turned, table.lookup entry.2 = some entry.1) {a : α} {b : β} :
    table.lookup a = some b ↔ turned.lookup b = some a :=
  ⟨fun found => there _ (mem_of_lookup found), fun found => back _ (mem_of_lookup found)⟩

/-- A letter is read as the character that is printed with this letter. -/
theorem lookup_escapes_iff {letter c : Char} :
    escapes.lookup letter = some c ↔ escapeLetters.lookup c = some letter :=
  lookup_iff_of_turned (by decide) (by decide)

/-- A name is read as the character that is printed by this name. -/
theorem lookup_characterNames_iff {name c : String} :
    characterNames.lookup name = some c ↔ namedCharacters.lookup c = some name :=
  lookup_iff_of_turned (by decide) (by decide)

/-! ### Reading undoes printing -/

/-- A character that has no letter is written itself, and it is not the backslash. -/
theorem escapeChar_cases (c : Char) :
    (∃ letter, escapes.lookup letter = some c ∧ escapeChar c = ['\\', letter]) ∨
      c ≠ '\x22' ∧ c ≠ '\\' ∧ escapeChar c = [c] := by
  cases printed : escapeLetters.lookup c with
  | some letter =>
    refine .inl ⟨letter, lookup_escapes_iff.mpr printed, ?_⟩
    simp only [escapeChar, printed]
  | none =>
    refine .inr ⟨?_, ?_, ?_⟩
    · rintro rfl
      cases printed
    · rintro rfl
      cases printed
    · simp only [escapeChar, printed]

theorem unescape_escapeChar (c : Char) (rest : List Char) :
    unescape (escapeChar c ++ rest) = (unescape rest).map (c :: ·) := by
  obtain ⟨letter, known, written⟩ | ⟨-, not_backslash, written⟩ := escapeChar_cases c
  · rw [written, List.cons_append, List.singleton_append, unescape]
    simp only [known]
  · rw [written, List.singleton_append, unescape]
    intro letter more same
    exact absurd same not_backslash

/-- Reading undoes printing. -/
theorem unescape_escape (cs : List Char) : unescape (escape cs) = .ok cs := by
  induction cs with
  | nil => rfl
  | cons c rest ih =>
    rw [escape, List.flatMap_cons, unescape_escapeChar]
    simp only [escape] at ih
    rw [ih]
    rfl

end ScopedLisp.Literal
