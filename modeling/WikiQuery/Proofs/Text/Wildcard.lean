import Mathlib.Computability.Language
import WikiQuery.Filter
import WikiQuery.Text.Basic

namespace WikiQuery.Text

-- A text fits a wildcard pattern: a star takes up any run of characters, a question mark any one
-- character, and every other character takes up itself.
inductive Fits : List Char → List Char → Prop where
  | nil : Fits [] []
  | star {pattern text : List Char} (run : List Char) :
    Fits pattern text → Fits ('*' :: pattern) (run ++ text)
  | mark {pattern text : List Char} (ch : Char) :
    Fits pattern text → Fits ('?' :: pattern) (ch :: text)
  | char {pattern text : List Char} {ch : Char} : ch ≠ '*' → ch ≠ '?' →
    Fits pattern text → Fits (ch :: pattern) (ch :: text)

namespace Regex

-- What stands for one character of a text: a dot, or the character itself.
inductive Atom where
  | dot
  | char (ch : Char)
deriving DecidableEq

-- A piece of a regular expression, which repeats an atom or does not.
inductive Item where
  | once (atom : Atom)
  | many (atom : Atom)
deriving DecidableEq

inductive Token where
  | atom (atom : Atom)
  | star
  | start
  | stop
deriving DecidableEq

-- The characters that belong to the notation, unless a backslash stands before them.
def operators : List Char :=
  ['\\', '.', '*', '+', '?', '^', '$', '|', '(', ')', '[', ']', '\x7b', '\x7d']

-- The characters that belong to the notation in classes and comments only. There may be a backslash
-- before them, as before operators, but elsewhere they stand for themselves without one.
def marks : List Char := ['-', '&', '~', '#']

-- What a character without a backslash says. Groups, classes, choices and other repetitions are not
-- read here.
def token? (ch : Char) : Option Token :=
  if ch = '.' then some (.atom .dot)
  else if ch = '*' then some .star
  else if ch = '^' then some .start
  else if ch = '$' then some .stop
  else if ch ∈ operators then none
  else some (.atom (.char ch))

def tokens? : List Char → Option (List Token)
  | [] => some []
  | '\\' :: ch :: rest =>
    if ch ∈ operators ++ marks then (tokens? rest).map (.atom (.char ch) :: ·) else none
  | ch :: rest => (token? ch).bind fun token => (tokens? rest).map (token :: ·)

-- The pieces up to the end of the text. A star belongs to the atom right before it.
def items? : List Token → Option (List Item)
  | [.stop] => some []
  | .atom atom :: .star :: rest => (items? rest).map (.many atom :: ·)
  | .atom atom :: rest => (items? rest).map (.once atom :: ·)
  | _ => none

-- The pieces of a regular expression that is about a text from its start to its end.
def read? (expression : List Char) : Option (List Item) :=
  match tokens? expression with
  | some (.start :: tokens) => items? tokens
  | _ => none

open scoped Computability

-- A dot stands for the end of a line only under the flag `s`.
def Atom.language (flags : List Char) : Atom → Language Char
  | .dot => {text | ∃ ch, (ch = '\n' → 's' ∈ flags) ∧ text = [ch]}
  | .char ch => {[ch]}

def Item.language (flags : List Char) : Item → Language Char
  | .once atom => atom.language flags
  | .many atom => (atom.language flags)∗

def language (flags : List Char) : List Item → Language Char
  | [] => 1
  | item :: rest => item.language flags * language flags rest

-- A regular expression can be read, and a text is in the language of its pieces.
def Matches (flags expression text : String) : Prop :=
  ∃ items, read? expression.toList = some items ∧ text.toList ∈ language flags.toList items

variable {flags text : List Char}

-- Under the flag `s`, a repeated dot stands for every text.
theorem mem_language_dots (h : 's' ∈ flags) : text ∈ (Item.many .dot).language flags := by
  refine Language.mem_kstar.mpr ⟨text.map ([·]), ?_, ?_⟩
  · exact (List.flatMap_singleton' text).symm
  · intro part hpart
    obtain ⟨ch, -, rfl⟩ := List.mem_map.mp hpart
    exact ⟨ch, fun _ => h, rfl⟩

theorem mem_language_dot (h : 's' ∈ flags) :
    text ∈ (Item.once .dot).language flags ↔ ∃ ch, text = [ch] := by
  constructor
  · rintro ⟨ch, -, rfl⟩
    exact ⟨ch, rfl⟩
  · rintro ⟨ch, rfl⟩
    exact ⟨ch, fun _ => h, rfl⟩

theorem mem_language_char {ch : Char} :
    text ∈ (Item.once (.char ch)).language flags ↔ text = [ch] :=
  Iff.rfl

theorem mem_language_cons {item : Item} {rest : List Item} :
    text ∈ language flags (item :: rest) ↔
      ∃ front ∈ item.language flags, ∃ back ∈ language flags rest, front ++ back = text :=
  Language.mem_mul

end Regex

open Regex

-- The piece of a regular expression that a character of a wildcard pattern becomes.
def wildcardItem (ch : Char) : Item :=
  if ch = '*' then .many .dot else if ch = '?' then .once .dot else .once (.char ch)

def wildcardTokens (ch : Char) : List Token :=
  if ch = '*' then [.atom .dot, .star]
  else if ch = '?' then [.atom .dot]
  else [.atom (.char ch)]

-- Whatever follows, the characters written for a wildcard are read as its tokens: what belongs to
-- the notation has a backslash before it.
theorem tokens?_wildcardPiece (ch : Char) (rest : List Char) :
    tokens? (wildcardPiece ch ++ rest) = (tokens? rest).map (wildcardTokens ch ++ ·) := by
  have hspecial : ∀ ch ∈ regexSpecial, ch ∈ operators ++ marks := by
    simp [regexSpecial, operators, marks]
  have hoperators : ∀ ch ∈ operators, ch ∈ regexSpecial := by
    simp [regexSpecial, operators]
  unfold wildcardPiece wildcardTokens
  by_cases hstar : ch = '*'
  · subst hstar
    cases h : tokens? rest <;> simp [tokens?, token?, h]
  by_cases hmark : ch = '?'
  · subst hmark
    cases h : tokens? rest <;> simp [tokens?, token?, h]
  rw [if_neg hstar, if_neg hmark, if_neg hstar, if_neg hmark]
  by_cases hch : ch ∈ regexSpecial
  · rw [if_pos hch, List.cons_append, List.cons_append, List.nil_append, tokens?,
      if_pos (hspecial ch hch)]
    rfl
  · have hplain : ∀ op ∈ operators, ch ≠ op := by
      rintro op hop rfl
      exact hch (hoperators _ hop)
    have htoken : token? ch = some (.atom (.char ch)) := by
      have hnot : ch ∉ operators := fun hmem => hplain ch hmem rfl
      simp [token?, hnot, hplain '.' (by decide), hplain '*' (by decide), hplain '^' (by decide),
        hplain '$' (by decide)]
    rw [if_neg hch, List.cons_append, List.nil_append, tokens?, htoken]
    · rfl
    · intro _ _ hbackslash
      exact absurd hbackslash (hplain '\\' (by decide))

theorem tokens?_wildcardPieces (pattern rest : List Char) :
    tokens? (pattern.flatMap wildcardPiece ++ rest) =
      (tokens? rest).map (pattern.flatMap wildcardTokens ++ ·) := by
  induction pattern with
  | nil => simp
  | cons ch pattern ih =>
    rw [List.flatMap_cons, List.append_assoc, tokens?_wildcardPiece, ih, Option.map_map]
    simp only [Function.comp_def, List.flatMap_cons, List.append_assoc]

theorem items?_once {atom : Atom} {tokens : List Token} (h : ∀ rest, tokens ≠ .star :: rest) :
    items? (.atom atom :: tokens) = (items? tokens).map (.once atom :: ·) := by
  rw [items?]
  intro rest heq
  exact h rest heq

-- No tokens of a wildcard begin with a star, so that the star of a wildcard repeats its own dot and
-- nothing before it.
theorem items?_wildcardTokens (pattern : List Char) :
    items? (pattern.flatMap wildcardTokens ++ [.stop]) = some (pattern.map wildcardItem) := by
  have hbegin : ∀ (pattern : List Char) (rest : List Token),
      pattern.flatMap wildcardTokens ++ [.stop] ≠ .star :: rest := by
    intro pattern rest
    cases pattern with
    | nil => simp
    | cons ch pattern =>
      rw [List.flatMap_cons, wildcardTokens]
      split_ifs <;> simp
  induction pattern with
  | nil => rfl
  | cons ch pattern ih =>
    rw [List.flatMap_cons, List.append_assoc, List.map_cons, wildcardTokens, wildcardItem]
    split_ifs
    · rw [List.cons_append, List.cons_append, List.nil_append, items?, ih]
      rfl
    · rw [List.cons_append, List.nil_append, items?_once (hbegin pattern), ih]
      rfl
    · rw [List.cons_append, List.nil_append, items?_once (hbegin pattern), ih]
      rfl

-- The regular expression for a wildcard pattern is read as one piece for each character.
theorem read?_wildcardRegex (pattern : List Char) :
    read? (wildcardRegex pattern) = some (pattern.map wildcardItem) := by
  have htokens : tokens? (wildcardRegex pattern) =
      some (.start :: (pattern.flatMap wildcardTokens ++ [.stop])) := by
    have hstop : tokens? ['$'] = some [.stop] := rfl
    have hbody := tokens?_wildcardPieces pattern ['$']
    rw [hstop, Option.map_some] at hbody
    rw [wildcardRegex, tokens?, hbody]
    · rfl
    · intro _ _ hbackslash
      cases hbackslash
  rw [read?, htokens]
  exact items?_wildcardTokens pattern

example : read? (wildcardRegex "v1.*?".toList) =
    some [.once (.char 'v'), .once (.char '1'), .once (.char '.'), .many .dot, .once .dot] := by
  decide

-- A character that is no wildcard and one that is never become the same piece.
theorem wildcardItem_injective : Function.Injective wildcardItem := by
  intro ch ch' h
  unfold wildcardItem at h
  split_ifs at h with h₁ h₂ h₃ h₄ <;> simp_all

theorem mem_language_iff_fits {flags pattern text : List Char} (h : 's' ∈ flags) :
    text ∈ language flags (pattern.map wildcardItem) ↔ Fits pattern text := by
  induction pattern generalizing text with
  | nil =>
    constructor
    · intro hmem
      rw [(Language.mem_one text).mp hmem]
      exact .nil
    · rintro ⟨⟩
      exact Language.nil_mem_one
  | cons ch pattern ih =>
    rw [List.map_cons, mem_language_cons]
    by_cases hstar : ch = '*'
    · rw [wildcardItem, if_pos hstar]
      subst hstar
      constructor
      · rintro ⟨run, -, back, hback, rfl⟩
        exact .star run (ih.mp hback)
      · intro hfits
        cases hfits with
        | star run hrest => exact ⟨run, mem_language_dots h, _, ih.mpr hrest, rfl⟩
        | char hne => exact absurd rfl hne
    by_cases hmark : ch = '?'
    · rw [wildcardItem, if_neg hstar, if_pos hmark]
      subst hmark
      constructor
      · rintro ⟨front, hfront, back, hback, rfl⟩
        obtain ⟨ch, rfl⟩ := (mem_language_dot h).mp hfront
        exact .mark ch (ih.mp hback)
      · intro hfits
        cases hfits with
        | mark ch hrest => exact ⟨[ch], (mem_language_dot h).mpr ⟨ch, rfl⟩, _, ih.mpr hrest, rfl⟩
        | char _ hne => exact absurd rfl hne
    · rw [wildcardItem, if_neg hstar, if_neg hmark]
      constructor
      · rintro ⟨front, hfront, back, hback, rfl⟩
        rw [mem_language_char.mp hfront]
        exact .char hstar hmark (ih.mp hback)
      · intro hfits
        cases hfits with
        | star => exact absurd rfl hstar
        | mark => exact absurd rfl hmark
        | char _ _ hrest => exact ⟨[ch], mem_language_char.mpr rfl, _, ih.mpr hrest, rfl⟩

-- The regular expression for a wildcard pattern matches, under the flag with which its tests are
-- shown, just the texts that fit the pattern, and no other pattern has the same one.
theorem likeRegex_matches_iff_fits :
    (∀ pattern text : String,
      Matches "s" (likeRegex pattern) text ↔ Fits pattern.toList text.toList) ∧
    Function.Injective likeRegex ∧
    ∀ operand pattern negated, (Test.regex operand (likeRegex pattern) negated).shown =
      (if negated then "!" else "") ++ "regex(" ++ operand.shown ++ ", " ++
        quoted (likeRegex pattern) ++ ", " ++ quoted "s" ++ ")" := by
  have hread : ∀ pattern, read? (likeRegex pattern).toList =
      some (pattern.toList.map wildcardItem) := by
    intro pattern
    rw [likeRegex, String.toList_ofList]
    exact read?_wildcardRegex pattern.toList
  refine ⟨?_, ?_, ?_⟩
  · intro pattern text
    unfold Matches
    simp only [hread, Option.some.injEq, exists_eq_left']
    exact mem_language_iff_fits (by decide)
  · intro pattern pattern' h
    have hitems := hread pattern
    rw [h, hread pattern'] at hitems
    have hmap := List.map_injective_iff.mpr wildcardItem_injective (Option.some.inj hitems)
    exact (String.toList_injective hmap).symm
  · intro operand pattern negated
    have hflag : ", \"s\")" = ", " ++ quoted "s" ++ ")" := by decide
    simp only [Test.shown, hflag, String.append_assoc]

end WikiQuery.Text
