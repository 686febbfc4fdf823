import Mathlib.Data.List.Basic

/-! # Operating system strings

`OsString` and `PathBuf` on Unix: any bytes. Printing them decodes UTF-8 and puts
`U+FFFD` for each maximal part of a character that is cut short, and for each byte that
starts none, as `String::from_utf8_lossy` does.
-/

namespace IfStack

/-- `OsString`, and `PathBuf`. -/
abbrev OsString := List UInt8

namespace OsString

/-- The bytes of a string. -/
def ofString (text : String) : OsString := text.toUTF8.toList

/-- `U+FFFD`. -/
def replacement : Char := Char.ofNat 0xFFFD

/-- A byte that continues a character. -/
def continues (byte : UInt8) : Bool := 0x80 ≤ byte && byte < 0xC0

/-- A second byte that continues a character of three or four bytes. Spellings that are
too long, surrogates and what lies past the last character are no characters. -/
def follows (first second : UInt8) : Bool :=
  if first = 0xE0 then 0xA0 ≤ second && second < 0xC0
  else if first = 0xED then 0x80 ≤ second && second < 0xA0
  else if first = 0xF0 then 0x90 ≤ second && second < 0xC0
  else if first = 0xF4 then 0x80 ≤ second && second < 0x90
  else continues second

/-- The character that a first byte and the bytes that continue it spell. -/
def spelled (first : Nat) (more : List UInt8) : Char :=
  Char.ofNat (more.foldl (fun value byte => value * 64 + (byte.toNat - 0x80)) first)

/-- `String::from_utf8_lossy`, character by character. -/
def decodeLossy : OsString → List Char
  | [] => []
  | first :: rest =>
      if first < 0x80 then spelled first.toNat [] :: decodeLossy rest
      else if 0xC2 ≤ first ∧ first < 0xE0 then
        match rest with
        | [] => [replacement]
        | second :: rest' =>
            if continues second then
              spelled (first.toNat - 0xC0) [second] :: decodeLossy rest'
            else replacement :: decodeLossy (second :: rest')
      else if 0xE0 ≤ first ∧ first < 0xF0 then
        match rest with
        | [] => [replacement]
        | second :: rest' =>
            if follows first second then
              match rest' with
              | [] => [replacement]
              | third :: rest'' =>
                  if continues third then
                    spelled (first.toNat - 0xE0) [second, third] :: decodeLossy rest''
                  else replacement :: decodeLossy (third :: rest'')
            else replacement :: decodeLossy (second :: rest')
      else if 0xF0 ≤ first ∧ first < 0xF5 then
        match rest with
        | [] => [replacement]
        | second :: rest' =>
            if follows first second then
              match rest' with
              | [] => [replacement]
              | third :: rest'' =>
                  if continues third then
                    match rest'' with
                    | [] => [replacement]
                    | fourth :: rest''' =>
                        if continues fourth then
                          spelled (first.toNat - 0xF0) [second, third, fourth] ::
                            decodeLossy rest'''
                        else replacement :: decodeLossy (fourth :: rest''')
                  else replacement :: decodeLossy (third :: rest'')
            else replacement :: decodeLossy (second :: rest')
      else replacement :: decodeLossy rest

/-- `to_string_lossy`, and the string that `display` prints. -/
def toStringLossy (value : OsString) : String := String.ofList (decodeLossy value)

/-- A dash is the character of one number. -/
theorem eq_of_ofNat_dash {value : Nat} (dash : Char.ofNat value = '-') : value = 0x2D := by
  by_cases valid : value.isValidChar
  · have spells : Char.ofNat value = Char.ofNatAux value valid := dif_pos valid
    rw [spells] at dash
    exact congrArg Char.toNat dash
  · have zero : Char.ofNat value = Char.ofNat 0 := dif_neg valid
    rw [zero] at dash
    cases congrArg Char.toNat dash

/-- A character of two bytes lies past the ASCII range. -/
theorem spelled_two {first : UInt8} (second : UInt8) (starts : 0xC2 ≤ first) :
    spelled (first.toNat - 0xC0) [second] ≠ '-' := by
  intro dash
  have value := eq_of_ofNat_dash dash
  have low : 0xC2 ≤ first.toNat := UInt8.le_iff_toNat_le.mp starts
  simp only [List.foldl_cons, List.foldl_nil] at value
  omega

/-- A second byte makes up for the zeros of a first. -/
theorem follows_low {first second : UInt8} (fits : follows first second) :
    (first = 0xE0 → 0xA0 ≤ second.toNat) ∧ (first = 0xF0 → 0x90 ≤ second.toNat) := by
  unfold follows at fits
  constructor
  · intro low
    rw [if_pos low, Bool.and_eq_true, decide_eq_true_eq] at fits
    exact UInt8.le_iff_toNat_le.mp fits.1
  · intro low
    subst low
    rw [if_neg (by decide), if_neg (by decide), if_pos rfl, Bool.and_eq_true,
      decide_eq_true_eq] at fits
    exact UInt8.le_iff_toNat_le.mp fits.1

/-- A character of three bytes lies past the ASCII range. -/
theorem spelled_three {first second : UInt8} (third : UInt8) (starts : 0xE0 ≤ first)
    (fits : follows first second) : spelled (first.toNat - 0xE0) [second, third] ≠ '-' := by
  intro dash
  have value := eq_of_ofNat_dash dash
  have low : 0xE0 ≤ first.toNat := UInt8.le_iff_toNat_le.mp starts
  have second := (follows_low fits).1
  rw [← UInt8.toNat_inj] at second
  change first.toNat = 0xE0 → _ at second
  simp only [List.foldl_cons, List.foldl_nil] at value
  omega

/-- A character of four bytes lies past the ASCII range. -/
theorem spelled_four {first second : UInt8} (third fourth : UInt8) (starts : 0xF0 ≤ first)
    (fits : follows first second) :
    spelled (first.toNat - 0xF0) [second, third, fourth] ≠ '-' := by
  intro dash
  have value := eq_of_ofNat_dash dash
  have low : 0xF0 ≤ first.toNat := UInt8.le_iff_toNat_le.mp starts
  have second := (follows_low fits).2
  rw [← UInt8.toNat_inj] at second
  change first.toNat = 0xF0 → _ at second
  simp only [List.foldl_cons, List.foldl_nil] at value
  omega

/-- The replacement character is not a dash. -/
theorem replacement_ne : replacement ≠ '-' := by decide

/-- How bytes begin to print: a byte of the ASCII range as its character, and others as no
dash. -/
inductive Begins : OsString → List Char → Prop
  | nothing : Begins [] []
  | ascii {first : UInt8} {rest : OsString} : first < 0x80 →
      Begins (first :: rest) (spelled first.toNat [] :: decodeLossy rest)
  | past {value : OsString} {char : Char} {chars : List Char} : char ≠ '-' →
      Begins value (char :: chars)

/-- A lossy decoding begins with the characters that the bytes begin with. -/
theorem decodeLossy_begins (value : OsString) : Begins value (decodeLossy value) := by
  fun_cases decodeLossy value with
  | case1 => exact .nothing
  | case2 first rest ascii => exact .ascii ascii
  | case4 first _ two second rest continued => exact .past (spelled_two second two.1)
  | case8 first _ _ three second fits third rest continued =>
      exact .past (spelled_three third three.1 fits)
  | case14 first _ _ _ four second fits third continued fourth rest continued' =>
      exact .past (spelled_four third fourth four.1 fits)
  -- Elsewhere a character is cut short, or none starts.
  | _ => exact .past replacement_ne

/-- Only the byte of a dash prints as one. -/
theorem decodeLossy_dash_iff {value : OsString} {chars : List Char} :
    decodeLossy value = '-' :: chars ↔ ∃ rest, value = 0x2D :: rest ∧ decodeLossy rest = chars := by
  constructor
  · intro starts
    have begins := decodeLossy_begins value
    rw [starts] at begins
    generalize dash : '-' = char at begins
    cases begins with
    | @ascii first rest ascii =>
        have byte : first = 0x2D := UInt8.toNat_inj.mp (eq_of_ofNat_dash dash.symm)
        exact ⟨rest, by rw [byte], rfl⟩
    | past other => exact absurd dash.symm other
  · intro ⟨rest, same, decoded⟩
    rw [same]
    unfold decodeLossy
    rw [if_pos (by decide), decoded]
    rfl

/-- A string prints with two dashes in front when its bytes have them there. -/
theorem dashes_prefix_iff (value : OsString) :
    ['-', '-'] <+: decodeLossy value ↔ [0x2D, 0x2D] <+: value := by
  constructor
  · intro ⟨chars, starts⟩
    obtain ⟨rest, rfl, second⟩ := decodeLossy_dash_iff.mp starts.symm
    obtain ⟨rest, rfl, _⟩ := decodeLossy_dash_iff.mp second
    exact ⟨rest, rfl⟩
  · intro ⟨rest, same⟩
    refine ⟨decodeLossy rest, ?_⟩
    rw [← same]
    have second := decodeLossy_dash_iff.mpr ⟨rest, rfl, rfl⟩
    exact (decodeLossy_dash_iff.mpr ⟨0x2D :: rest, rfl, second⟩).symm

end OsString
end IfStack
