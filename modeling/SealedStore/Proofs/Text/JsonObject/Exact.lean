import SealedStore.Proofs.Text.JsonObject.Grammar
import SealedStore.Proofs.Text.Utf8
import SealedStore.Proofs.TextMap

/-!
# JSON objects are read exactly

Each reader takes off a spelling of the production of the same name, and every one there is: a
character (`element?_eq_some_iff`), a string, a member, the members. So a text has a reading if and
only if it spells an object, and then it is the map of its members: `parse?_eq_some_iff`.
-/

namespace SealedStore.JsonObject

variable {chars rest spelled text : List Char} {char : Char}

/-! ## Characters -/

/-- Digits to the base 16 are ASCII. -/
theorem toNat_lt_of_hexValue? {digit : Char} {value : Nat} (hvalue : hexValue? digit = some value) :
    digit.toNat < 0x80 := by
  unfold hexValue? at hvalue
  simp only [Char.le_def, UInt32.le_iff_toNat_le] at hvalue
  have hnine : ('9' : Char).val.toNat = 57 := rfl
  have hsmall : ('f' : Char).val.toNat = 102 := rfl
  have hcapital : ('F' : Char).val.toNat = 70 := rfl
  have hdigit : digit.val.toNat = digit.toNat := rfl
  split at hvalue
  next => omega
  next =>
    split at hvalue
    next => omega
    next =>
      split at hvalue
      next => omega
      next => cases hvalue

theorem hexValue?_eq_some_iff {digit : Char} {value : Nat} :
    hexValue? digit = some value ↔ HexDigit digit value := by
  constructor
  · intro hvalue
    have hall : ∀ code, code < 0x80 → ∀ value ∈ hexValue? (Char.ofNat code),
        HexDigit (Char.ofNat code) value := by decide +kernel
    have hdigit := hall digit.toNat (toNat_lt_of_hexValue? hvalue) value
    rw [Char.ofNat_toNat] at hdigit
    exact hdigit hvalue
  · have hsmall : ∀ value, value < 16 →
        "0123456789abcdef".toList[value]?.bind hexValue? = some value := by decide
    have hcapital : ∀ value, value < 16 →
        "0123456789ABCDEF".toList[value]?.bind hexValue? = some value := by decide
    rintro (hdigit | hdigit)
    · have hvalue := hsmall value (List.getElem?_eq_some_iff.mp hdigit).1
      rwa [hdigit] at hvalue
    · have hvalue := hcapital value (List.getElem?_eq_some_iff.mp hdigit).1
      rwa [hdigit] at hvalue

theorem hexUnit?_eq_some_iff {unit : Nat} :
    hexUnit? chars = some (unit, rest) ↔
      ∃ digits, HexUnit digits unit ∧ chars = digits ++ rest := by
  constructor
  · intro hunit
    unfold hexUnit? at hunit
    split at hunit
    next a b c d after =>
      simp only [Option.bind_eq_bind, Option.bind_eq_some_iff, hexValue?_eq_some_iff,
        Option.some.injEq, Prod.mk.injEq] at hunit
      obtain ⟨p, ha, q, hb, r, hc, s, hd, hvalue, rfl⟩ := hunit
      have hnumber : unit = 0x1000 * p + 0x100 * q + 0x10 * r + s := by omega
      rw [hnumber]
      exact ⟨[a, b, c, d], .digits ha hb hc hd, rfl⟩
    next => cases hunit
  · rintro ⟨_, ⟨ha, hb, hc, hd⟩, rfl⟩
    simp only [hexUnit?, List.cons_append, List.nil_append, hexValue?_eq_some_iff.mpr ha,
      hexValue?_eq_some_iff.mpr hb, hexValue?_eq_some_iff.mpr hc, hexValue?_eq_some_iff.mpr hd,
      Option.bind_eq_bind, Option.bind_some, Option.some.injEq, Prod.mk.injEq, and_true]
    omega

theorem shortEscape?_eq_some_iff {letter : Char} :
    shortEscape? letter = some char ↔ ShortEscape letter char := by
  constructor
  · intro hshort
    unfold shortEscape? at hshort
    split at hshort <;> cases hshort <;> constructor
  · intro hshort
    cases hshort <;> rfl

theorem HexDigit.lt {digit : Char} {value : Nat} (hdigit : HexDigit digit value) : value < 16 := by
  rcases hdigit with hsmall | hcapital
  · exact (List.getElem?_eq_some_iff.mp hsmall).1
  · exact (List.getElem?_eq_some_iff.mp hcapital).1

theorem HexUnit.lt {digits : List Char} {unit : Nat} (hunit : HexUnit digits unit) :
    unit < 0x10000 := by
  cases hunit with
  | digits ha hb hc hd =>
      have hp := ha.lt
      have hq := hb.lt
      have hr := hc.lt
      have hs := hd.lt
      omega

/-- The second half of a pair makes one character with the first. -/
theorem exists_of_lowSurrogate? {first : List Char} {high : Nat} (hfirst : HexUnit first high)
    (hhigh : 0xd800 ≤ high ∧ high < 0xdc00)
    (hlow : lowSurrogate? high chars = some (char, rest)) :
    ∃ second, Element ('\\' :: 'u' :: first ++ '\\' :: 'u' :: second) char ∧
      chars = '\\' :: 'u' :: second ++ rest := by
  unfold lowSurrogate? at hlow
  split at hlow
  next after =>
    simp only [Option.bind_eq_bind, Option.bind_eq_some_iff] at hlow
    obtain ⟨⟨low, last⟩, hunit, hpair⟩ := hlow
    obtain ⟨second, hsecond, rfl⟩ := hexUnit?_eq_some_iff.mp hunit
    dsimp only at hpair
    split at hpair
    next hbounds =>
      simp only [Option.some.injEq, Prod.mk.injEq] at hpair
      obtain ⟨rfl, rfl⟩ := hpair
      have hvalid : (0x10000 + (high - 0xd800) * 0x400 + (low - 0xdc00)).isValidChar :=
        .inr (by omega)
      refine ⟨second, .pair hfirst hsecond hhigh hbounds ?_, rfl⟩
      rw [Utf8.toNat_ofNat hvalid, Nat.mul_comm]
    next => cases hpair
  next => cases hlow

/-- An escape by number spells a character by its own number, or by a pair of surrogates. -/
theorem exists_of_numberEscape? (hescape : numberEscape? chars = some (char, rest)) :
    ∃ spelled, Element ('\\' :: 'u' :: spelled) char ∧ chars = spelled ++ rest := by
  simp only [numberEscape?, Option.bind_eq_bind, Option.bind_eq_some_iff] at hescape
  obtain ⟨⟨unit, after⟩, hunit, hrest⟩ := hescape
  obtain ⟨first, hfirst, rfl⟩ := hexUnit?_eq_some_iff.mp hunit
  dsimp only at hrest
  split at hrest
  next hscalar =>
    cases hrest
    have hlt := hfirst.lt
    have hvalid : unit.isValidChar := hscalar.imp id fun hhigh ↦ ⟨by omega, by omega⟩
    refine ⟨first, .number ?_, rfl⟩
    rwa [Utf8.toNat_ofNat hvalid]
  next hsurrogate =>
    split at hrest
    next hhigh =>
      obtain ⟨second, helement, rfl⟩ := exists_of_lowSurrogate? hfirst (by omega) hrest
      exact ⟨_, helement, (List.append_assoc _ _ _).symm⟩
    next => cases hrest

/-- What is read as one character spells it. -/
theorem exists_of_element? (helement : element? chars = some (char, rest)) :
    ∃ spelled, Element spelled char ∧ chars = spelled ++ rest := by
  unfold element? at helement
  split at helement
  next =>
    obtain ⟨spelled, hspelled, rfl⟩ := exists_of_numberEscape? helement
    exact ⟨_, hspelled, rfl⟩
  next letter after _ =>
    obtain ⟨meant, hmeant, hpair⟩ := Option.map_eq_some_iff.mp helement
    cases hpair
    exact ⟨['\\', letter], .short (shortEscape?_eq_some_iff.mp hmeant), rfl⟩
  next first after _ _ =>
    split at helement
    next => cases helement
    next hplain =>
      cases helement
      simp only [not_or, Nat.not_lt] at hplain
      exact ⟨[char], .literal hplain.2.2 hplain.1 hplain.2.1, rfl⟩
  next => cases helement

/-- A character that needs no escape is read as it is. -/
theorem element?_cons {char : Char} {rest : List Char} (hquote : char ≠ '"')
    (hbackslash : char ≠ '\\') (hcontrol : ¬ char.toNat < 0x20) :
    element? (char :: rest) = some (char, rest) := by
  unfold element?
  split
  next heq => exact absurd (List.cons.inj heq).1 hbackslash
  next heq => exact absurd (List.cons.inj heq).1 hbackslash
  next heq =>
    obtain ⟨rfl, rfl⟩ := List.cons.inj heq
    rw [if_neg (by simp only [not_or]; exact ⟨hquote, hbackslash, hcontrol⟩)]
  next heq => cases heq

/-- A character inside a string is read, whatever follows it. -/
theorem element?_append (hspelled : Element spelled char) (rest : List Char) :
    element? (spelled ++ rest) = some (char, rest) := by
  cases hspelled with
  | literal hcontrol hquote hbackslash =>
      exact element?_cons hquote hbackslash (Nat.not_lt.mpr hcontrol)
  | short hshort => cases hshort <;> rfl
  | @number digits _ hunit =>
      have hvalid := Utf8.toNat_valid char
      show numberEscape? (digits ++ rest) = _
      rw [numberEscape?, hexUnit?_eq_some_iff.mpr ⟨digits, hunit, rfl⟩]
      simp only [Option.bind_eq_bind, Option.bind_some]
      rw [if_pos (by omega), Char.ofNat_toNat]
  | @pair first second high low _ hfirst hsecond hhigh hlow hchar =>
      have hcode : 0x10000 + (high - 0xd800) * 0x400 + (low - 0xdc00) = char.toNat := by omega
      show numberEscape? (first ++ '\\' :: 'u' :: second ++ rest) = _
      rw [List.append_assoc, numberEscape?, hexUnit?_eq_some_iff.mpr ⟨first, hfirst, rfl⟩]
      simp only [Option.bind_eq_bind, Option.bind_some, List.cons_append]
      rw [if_neg (by omega), if_pos hhigh.2, lowSurrogate?,
        hexUnit?_eq_some_iff.mpr ⟨second, hsecond, rfl⟩]
      simp only [Option.bind_eq_bind, Option.bind_some]
      rw [if_pos hlow, hcode, Char.ofNat_toNat]

theorem element?_eq_some_iff :
    element? chars = some (char, rest) ↔
      ∃ spelled, Element spelled char ∧ chars = spelled ++ rest := by
  constructor
  · exact exists_of_element?
  · rintro ⟨spelled, hspelled, rfl⟩
    exact element?_append hspelled rest

/-! ## Strings -/

/-- The inside of a string is read up to the quote that closes it. -/
theorem stringBody?_append {inner : List Char} (hinner : Inside inner text) (rest : List Char) :
    stringBody? (inner ++ '"' :: rest) = some (text, rest) := by
  induction hinner with
  | nil =>
      rw [List.nil_append, stringBody?]
      rfl
  | cons hfirst _ ih =>
      rw [List.append_assoc, stringBody?]
      split
      next helement =>
        rw [element?_append hfirst] at helement
        cases helement
        rw [ih]
        rfl
      next helement =>
        rw [element?_append hfirst] at helement
        cases helement

theorem exists_of_stringBody? (hbody : stringBody? chars = some (text, rest)) :
    ∃ inner, Inside inner text ∧ chars = inner ++ '"' :: rest := by
  fun_induction stringBody? chars generalizing text with
  | case1 chars char after helement ih =>
      obtain ⟨⟨others, last⟩, hothers, hpair⟩ := Option.map_eq_some_iff.mp hbody
      cases hpair
      obtain ⟨spelled, hspelled, rfl⟩ := exists_of_element? helement
      obtain ⟨inner, hinner, rfl⟩ := ih hothers
      exact ⟨spelled ++ inner, .cons hspelled hinner, (List.append_assoc _ _ _).symm⟩
  | case2 chars helement =>
      obtain ⟨last, hclosing, hpair⟩ := Option.map_eq_some_iff.mp hbody
      cases hpair
      unfold closing? at hclosing
      split at hclosing
      next => cases hclosing; exact ⟨[], .nil, rfl⟩
      next => cases hclosing

theorem isSpace_iff :
    isSpace char ↔ char = ' ' ∨ char = '\t' ∨ char = '\n' ∨ char = '\r' := by
  simp only [isSpace, Bool.or_eq_true, decide_eq_true_eq, or_assoc]

/-- What is skipped is space. -/
theorem exists_space (chars : List Char) :
    ∃ space, Space space ∧ chars = space ++ skipSpace chars :=
  ⟨chars.takeWhile isSpace,
    fun char hchar ↦ isSpace_iff.mp (List.all_eq_true.mp List.all_takeWhile char hchar),
    List.takeWhile_append_dropWhile.symm⟩

theorem skipSpace_append {space : List Char} (hspace : Space space) (rest : List Char) :
    skipSpace (space ++ rest) = skipSpace rest :=
  List.dropWhile_append_of_pos fun char hchar ↦ isSpace_iff.mpr (hspace char hchar)

theorem skipSpace_cons {char : Char} (rest : List Char) (hspace : isSpace char = false) :
    skipSpace (char :: rest) = char :: rest :=
  List.dropWhile_cons_of_neg (by simp [hspace])

/-- A string begins with its quote, so there is no space to skip. -/
theorem Quoted.skipSpace_append {value : String} (hquoted : Quoted spelled value)
    (rest : List Char) : skipSpace (spelled ++ rest) = spelled ++ rest := by
  cases hquoted with
  | quotes => exact skipSpace_cons _ rfl

theorem string?_eq_some_iff {value : String} :
    string? chars = some (value, rest) ↔ ∃ spelled after,
      Quoted spelled value ∧ chars = spelled ++ after ∧ rest = skipSpace after := by
  constructor
  · intro hstring
    unfold string? at hstring
    split at hstring
    next =>
      obtain ⟨⟨read, after⟩, hbody, hpair⟩ := Option.map_eq_some_iff.mp hstring
      cases hpair
      obtain ⟨inner, hinner, rfl⟩ := exists_of_stringBody? hbody
      refine ⟨'"' :: inner ++ ['"'], after, .quotes ?_, ?_, rfl⟩
      · rwa [String.toList_ofList]
      · simp
    next => cases hstring
  · rintro ⟨_, after, ⟨hinner⟩, rfl, rfl⟩
    rw [List.cons_append, List.cons_append, List.append_assoc, List.singleton_append, string?,
      stringBody?_append hinner, Option.map_some]
    dsimp only
    rw [String.ofList_toList]

/-! ## Members -/

variable {member : String × String} {members : List (String × String)}

theorem member?_eq_some_iff :
    member? chars = some (member, rest) ↔
      ∃ spelled after, Member spelled member ∧ chars = spelled ++ after ∧
        rest = skipSpace after := by
  constructor
  · intro hmember
    simp only [member?, Option.bind_eq_bind, Option.bind_eq_some_iff] at hmember
    obtain ⟨⟨key, reached⟩, hkey, hrest⟩ := hmember
    obtain ⟨left, afterKey, hleft, rfl, rfl⟩ := string?_eq_some_iff.mp hkey
    dsimp only at hrest
    split at hrest
    next later hcolon =>
      simp only [Option.bind_eq_some_iff, Option.some.injEq, Prod.mk.injEq] at hrest
      obtain ⟨⟨value, last⟩, hvalue, rfl, rfl⟩ := hrest
      obtain ⟨right, afterValue, hright, hlater, rfl⟩ := string?_eq_some_iff.mp hvalue
      obtain ⟨before, hbefore, hafterKey⟩ := exists_space afterKey
      obtain ⟨between, hbetween, hsplit⟩ := exists_space later
      refine ⟨_, afterValue, .colon hleft hbefore hbetween hright, ?_, rfl⟩
      rw [hafterKey, hcolon, hsplit, hlater]
      simp
    next => cases hrest
  · rintro ⟨_, later, hmember, rfl, rfl⟩
    cases hmember with
    | @colon left right before after key value hkey hbefore hafter hvalue =>
        have hfirst : string? (left ++ (before ++ ':' :: (after ++ (right ++ later)))) =
            some (key, ':' :: (after ++ (right ++ later))) :=
          string?_eq_some_iff.mpr ⟨left, _, hkey, rfl,
            by rw [skipSpace_append hbefore, skipSpace_cons _ rfl]⟩
        have hsecond : string? (skipSpace (after ++ (right ++ later))) =
            some (value, skipSpace later) :=
          string?_eq_some_iff.mpr ⟨right, later, hvalue,
            by rw [skipSpace_append hafter, hvalue.skipSpace_append], rfl⟩
        rw [member?, List.append_assoc, List.append_assoc, List.append_assoc, List.cons_append,
          hfirst]
        simp only [Option.bind_eq_bind, Option.bind_some]
        rw [hsecond]
        rfl

/-- Space before the first member belongs to the members. -/
theorem Members.space_append {space : List Char} (hspace : Space space)
    (hmembers : Members chars members) : Members (space ++ chars) members := by
  have hboth {before : List Char} (hbefore : Space before) : Space (space ++ before) :=
    List.forall_mem_append.mpr ⟨hspace, hbefore⟩
  cases hmembers with
  | last hbefore hmember hafter =>
      simpa only [List.append_assoc] using Members.last (hboth hbefore) hmember hafter
  | comma hbefore hmember hafter hrest =>
      simpa only [List.append_assoc] using Members.comma (hboth hbefore) hmember hafter hrest

/-- A member begins with the quote of its key, so there is no space to skip. -/
theorem Member.skipSpace_append (hmember : Member spelled member) (rest : List Char) :
    skipSpace (spelled ++ rest) = spelled ++ rest := by
  cases hmember with
  | colon hkey => simpa only [List.append_assoc] using hkey.skipSpace_append _

theorem members?_of_brace {chars : List Char} {member : String × String}
    (hmember : member? chars = some (member, ['\x7d'])) : members? chars = some [member] := by
  rw [members?]
  split
  next heq => rw [hmember] at heq; cases heq
  next heq => rw [hmember] at heq; cases heq; rfl
  next hother => exact absurd hmember (hother member)

theorem members?_of_comma {chars rest : List Char} {member : String × String}
    (hmember : member? chars = some (member, ',' :: rest)) :
    members? chars = (members? (skipSpace rest)).map (member :: ·) := by
  rw [members?]
  split
  next heq => rw [hmember] at heq; cases heq; rfl
  next heq => rw [hmember] at heq; cases heq
  next hother _ => exact absurd hmember (hother member rest)

theorem exists_of_members? (hread : members? chars = some members) :
    ∃ inner, Members inner members ∧ chars = inner ++ ['\x7d'] := by
  fun_induction members? chars generalizing members with
  | case1 chars member after hmember ih =>
      obtain ⟨others, hothers, rfl⟩ := Option.map_eq_some_iff.mp hread
      obtain ⟨spelled, later, hspelled, rfl, hcomma⟩ := member?_eq_some_iff.mp hmember
      obtain ⟨space, hspace, hlater⟩ := exists_space later
      obtain ⟨inner, hinner, hafter⟩ := ih hothers
      obtain ⟨gap, hgap, hsplit⟩ := exists_space after
      refine ⟨[] ++ spelled ++ space ++ ',' :: (gap ++ inner),
        .comma (List.forall_mem_nil _) hspelled hspace (hinner.space_append hgap), ?_⟩
      rw [hlater, ← hcomma, hsplit, hafter]
      simp
  | case2 chars member hmember =>
      cases hread
      obtain ⟨spelled, later, hspelled, rfl, hbrace⟩ := member?_eq_some_iff.mp hmember
      obtain ⟨space, hspace, hlater⟩ := exists_space later
      refine ⟨[] ++ spelled ++ space, .last (List.forall_mem_nil _) hspelled hspace, ?_⟩
      rw [hlater, ← hbrace]
      simp
  | case3 => cases hread

theorem members?_skipSpace_append (hmembers : Members chars members) :
    members? (skipSpace (chars ++ ['\x7d'])) = some members := by
  induction hmembers with
  | @last before chars after member hbefore hmember hafter =>
      have hread : member? (chars ++ (after ++ ['\x7d'])) = some (member, ['\x7d']) :=
        member?_eq_some_iff.mpr ⟨chars, _, hmember, rfl,
          by rw [skipSpace_append hafter, skipSpace_cons _ rfl]⟩
      rw [List.append_assoc, List.append_assoc, skipSpace_append hbefore,
        hmember.skipSpace_append, members?_of_brace hread]
  | @comma before chars after rest member others hbefore hmember hafter _ ih =>
      have hread : member? (chars ++ (after ++ ',' :: (rest ++ ['\x7d']))) =
          some (member, ',' :: (rest ++ ['\x7d'])) :=
        member?_eq_some_iff.mpr ⟨chars, _, hmember, rfl,
          by rw [skipSpace_append hafter, skipSpace_cons _ rfl]⟩
      rw [List.append_assoc, List.append_assoc, List.append_assoc, List.cons_append,
        skipSpace_append hbefore, hmember.skipSpace_append, members?_of_comma hread, ih,
        Option.map_some]

/-! ## Objects -/

/-- What members begin with is no brace. -/
theorem Members.skipSpace_append_ne (hmembers : Members chars members) (rest : List Char) :
    skipSpace (chars ++ rest) ≠ ['\x7d'] := by
  have hquote {before spelled : List Char} {member : String × String} (hbefore : Space before)
      (hmember : Member spelled member) (later : List Char) :
      skipSpace (before ++ (spelled ++ later)) ≠ ['\x7d'] := by
    rw [JsonObject.skipSpace_append hbefore, hmember.skipSpace_append]
    cases hmember with
    | colon hkey =>
        cases hkey with
        | quotes => simp
  cases hmembers with
  | last hbefore hmember =>
      rw [List.append_assoc, List.append_assoc]
      exact hquote hbefore hmember _
  | comma hbefore hmember =>
      rw [List.append_assoc, List.append_assoc, List.append_assoc]
      exact hquote hbefore hmember _

/-- Between its braces a text without members spells the empty map. -/
theorem parse?_of_brace {text : String} {inner : List Char}
    (htrim : Blank.trimList text.toList = '\x7b' :: inner)
    (hinner : skipSpace inner = ['\x7d']) : parse? text = some .empty := by
  unfold parse?
  split
  next rest hrest =>
    cases hrest.symm.trans htrim
    split
    next => rfl
    next hother => exact absurd hinner hother
  next hother => exact absurd htrim (hother inner)

/-- A text in braces spells the map of its members, if there are any. -/
theorem parse?_of_members {text : String} {inner : List Char} {members : List (String × String)}
    (htrim : Blank.trimList text.toList = '\x7b' :: inner)
    (hinner : skipSpace inner ≠ ['\x7d']) (hmembers : members? (skipSpace inner) = some members) :
    parse? text = some (.ofList members) := by
  unfold parse?
  split
  next rest hrest =>
    cases hrest.symm.trans htrim
    split
    next hbrace => exact absurd hbrace hinner
    next => rw [hmembers, Option.map_some]
  next hother => exact absurd htrim (hother inner)

/-- A text is read exactly if it spells an object, the blanks at its ends apart, and then it is the
map of the members. -/
theorem parse?_eq_some_iff {text : String} {map : TextMap String} :
    parse? text = some map ↔
      ∃ members, Object (Blank.trimList text.toList) members ∧ map = .ofList members := by
  constructor
  · intro hparse
    unfold parse? at hparse
    split at hparse
    next inner htrim =>
      rw [htrim]
      obtain ⟨space, hspace, hinner⟩ := exists_space inner
      split at hparse
      next hbrace =>
        cases hparse
        rw [hinner, hbrace]
        exact ⟨[], .empty hspace, rfl⟩
      next =>
        obtain ⟨members, hmembers, rfl⟩ := Option.map_eq_some_iff.mp hparse
        obtain ⟨chars, hchars, hrest⟩ := exists_of_members? hmembers
        rw [hinner, hrest, ← List.append_assoc]
        exact ⟨members, .braces (hchars.space_append hspace), rfl⟩
    next => cases hparse
  · rintro ⟨members, hobject, rfl⟩
    generalize htrim : Blank.trimList text.toList = trimmed at hobject
    cases hobject with
    | empty hspace =>
        exact parse?_of_brace htrim (skipSpace_append hspace _)
    | braces hmembers =>
        exact parse?_of_members htrim (hmembers.skipSpace_append_ne _)
          (members?_skipSpace_append hmembers)

/-! ## The map of the members -/

theorem get?_foldl_insert (map : TextMap String) (key : String) (members : List (String × String)) :
    (members.foldl (fun result (other, value) ↦ result.insert other value) map).get? key =
      (lastValue? key members).or (map.get? key) := by
  induction members generalizing map with
  | nil => rfl
  | cons head rest ih =>
      rw [List.foldl_cons, ih, TextMap.get?_insert, lastValue?, lastValue?, List.reverse_cons,
        List.find?_append]
      cases rest.reverse.find? (·.1 = key) with
      | some found => rfl
      | none =>
          by_cases hkey : key = head.1
          · simp [hkey]
          · simp [hkey, Ne.symm hkey]

/-- Of the members with one key the last counts. -/
theorem get?_ofList (key : String) (members : List (String × String)) :
    (TextMap.ofList members).get? key = lastValue? key members := by
  rw [TextMap.ofList, get?_foldl_insert, TextMap.get?_empty, Option.or_none]

/-- So a map is spelled by its entries in any order. -/
theorem ofList_of_perm {map : TextMap String} {members : List (String × String)}
    (hperm : members.Perm map.entries) : TextMap.ofList members = map := by
  refine TextMap.ext_get? fun key ↦ ?_
  rw [get?_ofList, lastValue?]
  cases hfind : members.reverse.find? (·.1 = key) with
  | none =>
      cases hget : map.get? key with
      | none => rfl
      | some value =>
          have hmem := hperm.mem_iff.mpr (TextMap.get?_eq_some_iff.mp hget)
          have hkey := List.find?_eq_none.mp hfind _ (List.mem_reverse.mpr hmem)
          exact absurd (decide_eq_true rfl) hkey
  | some found =>
      have hkey := List.find?_some hfind
      simp only [decide_eq_true_eq] at hkey
      have hmem := hperm.mem_iff.mp (List.mem_reverse.mp (List.mem_of_find?_eq_some hfind))
      exact (TextMap.get?_eq_some_iff.mpr (hkey ▸ hmem)).symm

end SealedStore.JsonObject
