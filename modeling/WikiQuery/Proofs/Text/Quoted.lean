import WikiQuery.Filter

namespace WikiQuery

namespace Text

-- Reads a quoted text from behind its opening quote: the text, and what follows its closing quote.
-- The character behind a backslash is taken as it is, and the first quote without one ends the text.
def unquote? : List Char → Option (List Char × List Char)
  | [] => none
  | '"' :: rest => some ([], rest)
  | '\\' :: ch :: rest => (unquote? rest).map (Prod.map (ch :: ·) id)
  | ch :: rest => (unquote? rest).map (Prod.map (ch :: ·) id)

-- Whatever follows, what is written for a text is read as the text.
theorem unquote?_escapeQuotes (text rest : List Char) :
    unquote? (escapeQuotes text ++ '"' :: rest) = some (text, rest) := by
  induction text with
  | nil => rfl
  | cons ch text ih =>
    by_cases hescaped : ch = '"' ∨ ch = '\\'
    · rw [escapeQuotes, if_pos hescaped, List.cons_append, List.cons_append, unquote?, ih]
      rfl
    · obtain ⟨hquote, hbackslash⟩ := not_or.mp hescaped
      rw [escapeQuotes, if_neg hescaped, List.cons_append, unquote?, ih]
      · rfl
      · exact hquote
      · intro _ _ h
        exact absurd h hbackslash

theorem toList_quoted_append (text rest : String) :
    (quoted text ++ rest).toList = '"' :: (escapeQuotes text.toList ++ '"' :: rest.toList) := by
  simp [quoted, quote]

-- Where a quoted text ends does not depend on what follows it.
theorem quoted_append_inj {text text' rest rest' : String}
    (h : quoted text ++ rest = quoted text' ++ rest') : text = text' ∧ rest = rest' := by
  have hinside : escapeQuotes text.toList ++ '"' :: rest.toList =
      escapeQuotes text'.toList ++ '"' :: rest'.toList := by
    have hlist := congrArg String.toList h
    rw [toList_quoted_append, toList_quoted_append] at hlist
    exact (List.cons.inj hlist).2
  have hread := congrArg unquote? hinside
  rw [unquote?_escapeQuotes, unquote?_escapeQuotes] at hread
  obtain ⟨htext, hrest⟩ := Prod.mk.inj (Option.some.inj hread)
  exact ⟨String.toList_injective htext, String.toList_injective hrest⟩

theorem quoted_injective : Function.Injective quoted := by
  intro text text' h
  exact (quoted_append_inj (congrArg (· ++ "") h)).1

theorem length_of_unquote? {written : List Char} {read : List Char × List Char}
    (h : unquote? written = some read) : read.2.length < written.length := by
  fun_induction unquote? written generalizing read with
  | case1 => cases h
  | case2 behind =>
    cases h
    exact Nat.lt_succ_self _
  | case3 ch behind ih =>
    obtain ⟨read, hread, rfl⟩ := Option.map_eq_some_iff.mp h
    have hshorter : read.2.length < behind.length := ih hread
    exact Nat.lt_succ_of_lt (Nat.lt_succ_of_lt hshorter)
  | case4 ch behind _ _ ih =>
    obtain ⟨read, hread, rfl⟩ := Option.map_eq_some_iff.mp h
    have hshorter : read.2.length < behind.length := ih hread
    exact Nat.lt_succ_of_lt hshorter

-- Reads from the start to the end, and gives the texts that stand in quotes.
def literals? : List Char → Option (List (List Char))
  | [] => some []
  | ch :: rest =>
    if ch = '"' then
      match _read : unquote? rest with
      | none => none
      | some (text, behind) => (literals? behind).map (text :: ·)
    else literals? rest
termination_by written => written.length
decreasing_by
  · exact Nat.lt_succ_of_lt (length_of_unquote? _read)
  · exact Nat.lt_succ_self _

theorem literals?_bare {bare : List Char} (h : '"' ∉ bare) (rest : List Char) :
    literals? (bare ++ rest) = literals? rest := by
  induction bare with
  | nil => rfl
  | cons ch bare ih =>
    obtain ⟨hch, hbare⟩ := not_or.mp (mt List.mem_cons.mpr h)
    rw [List.cons_append, literals?, if_neg (Ne.symm hch), ih hbare]

theorem literals?_quoted (text rest : String) :
    literals? (quoted text ++ rest).toList =
      (literals? rest.toList).map (text.toList :: ·) := by
  have hread := unquote?_escapeQuotes text.toList rest.toList
  rw [toList_quoted_append, literals?, if_pos rfl]
  split
  · next hnone =>
    rw [hread] at hnone
    cases hnone
  · next text' rest' hsome =>
    rw [hread] at hsome
    cases hsome
    rfl

end Text

open Text

-- A part of what is shown: something as it is, or a text in quotes.
inductive Piece where
  | bare (shown : String)
  | literal (text : String)
deriving DecidableEq

namespace Piece

def shown : Piece → String
  | bare s => s
  | literal text => quoted text

@[simp] theorem shown_bare (s : String) : (bare s).shown = s := rfl

@[simp] theorem shown_literal (text : String) : (literal text).shown = quoted text := rfl

def bare? : Piece → Option String
  | bare s => some s
  | literal _ => none

def text? : Piece → Option String
  | bare _ => none
  | literal text => some text

def joined (pieces : List Piece) : String := String.join (pieces.map shown)

theorem joined_cons (piece : Piece) (pieces : List Piece) :
    joined (piece :: pieces) = piece.shown ++ joined pieces := by
  simp [joined]

theorem joined_append (pieces pieces' : List Piece) :
    joined (pieces ++ pieces') = joined pieces ++ joined pieces' := by
  simp [joined]

-- If the bare pieces are the same at the same places, so are the texts in quotes between them.
theorem joined_inj {pieces pieces' : List Piece} (hbare : pieces.map bare? = pieces'.map bare?)
    (h : joined pieces = joined pieces') : pieces = pieces' := by
  induction pieces generalizing pieces' with
  | nil => exact (List.map_eq_nil_iff.mp hbare.symm).symm
  | cons piece pieces ih =>
    cases pieces' with
    | nil => cases hbare
    | cons piece' pieces' =>
      obtain ⟨hpiece, hrest⟩ := List.cons.inj hbare
      rw [joined_cons, joined_cons] at h
      -- a bare piece is cancelled as it is, a literal because it shows where it ends
      cases piece with
      | bare s =>
        cases piece' with
        | bare s' =>
          obtain rfl : s = s' := Option.some.inj hpiece
          rw [ih hrest ((String.append_right_inj _).mp h)]
        | literal text' => cases hpiece
      | literal text =>
        cases piece' with
        | bare s' => cases hpiece
        | literal text' =>
          obtain ⟨rfl, hjoined⟩ := quoted_append_inj h
          rw [ih hrest hjoined]

theorem literals?_joined {pieces : List Piece}
    (h : ∀ s ∈ pieces.filterMap bare?, '"' ∉ s.toList) :
    literals? (joined pieces).toList = some ((pieces.filterMap text?).map String.toList) := by
  induction pieces with
  | nil =>
    rw [joined, List.map_nil, String.join_nil, String.toList_empty, literals?]
    rfl
  | cons piece pieces ih =>
    rw [joined_cons]
    cases piece with
    | bare s =>
      obtain ⟨hs, hpieces⟩ := List.forall_mem_cons.mp h
      rw [shown_bare, String.toList_append, literals?_bare hs, ih hpieces]
      rfl
    | literal text =>
      rw [shown_literal, literals?_quoted, ih h]
      rfl

end Piece

def Value.piece : Value → Piece
  | .text s => .literal s
  | value => .bare value.shown

def Operand.piece : Operand → Piece
  | .value x => x.piece
  | .text s => .literal s
  | operand => .bare operand.shown

-- The flag of a regular expression is in quotes as its pattern is.
def Test.pieces : Test → List Piece
  | .compare left relation right =>
    [left.piece, .bare (" " ++ relation.sign ++ " "), right.piece]
  | .regex operand pattern negated =>
    [.bare ((if negated then "!" else "") ++ "regex("), operand.piece, .bare ", ",
      .literal pattern, .bare ", ", .literal "s", .bare ")"]

def Filter.pieces (f : Filter) : List Piece := [.bare " && "].intercalate (f.map Test.pieces)

theorem Value.shown_piece (x : Value) : x.piece.shown = x.shown := by
  cases x <;> rfl

theorem Operand.shown_piece (operand : Operand) : operand.piece.shown = operand.shown := by
  cases operand with
  | value x => exact x.shown_piece
  | _ => rfl

theorem Test.joined_pieces (t : Test) : Piece.joined t.pieces = t.shown := by
  cases t with
  | compare left relation right =>
    simp [Piece.joined, pieces, shown, Operand.shown_piece, String.append_assoc]
  | regex operand pattern negated =>
    have hflag : ", \"s\")" = ", " ++ (quoted "s" ++ ")") := by decide
    simp [Piece.joined, pieces, shown, Operand.shown_piece, hflag, String.append_assoc]

namespace Filter

theorem joined_pieces (f : Filter) : Piece.joined f.pieces = f.shown := by
  unfold pieces shown
  induction f with
  | nil => rfl
  | cons t f ih =>
    cases f with
    | nil => simp [Test.joined_pieces]
    | cons t' f =>
      rw [List.map_cons, List.map_cons] at ih ⊢
      rw [List.intercalate_cons_cons, Piece.joined_append, Piece.joined_append, ih,
        Test.joined_pieces, List.map_cons, List.map_cons, String.intercalate_cons_cons]
      simp [Piece.joined]

-- No text gets out of its quotes. Behind the opening quote it is read as it is, whatever follows,
-- and so is every text in quotes of a filter that is shown. Different texts are shown as different
-- ones, in a filter too if all else is the same, and if there is no quote in what is shown without
-- quotes, the texts of a filter are all that can be read in it.
theorem literals_unbroken :
    (∀ text rest : String, ∃ inside, (quoted text ++ rest).toList = '"' :: inside ∧
      unquote? inside = some (text.toList, rest.toList)) ∧
    (Function.Injective fun text => (Operand.text text).shown) ∧
    (Function.Injective fun text => (Value.text text).shown) ∧
    (∀ operand negated,
      Function.Injective fun pattern => (Test.regex operand pattern negated).shown) ∧
    (∀ (f : Filter) before text after, f.pieces = before ++ .literal text :: after →
      ∃ inside, f.shown.toList = (Piece.joined before).toList ++ '"' :: inside ∧
        unquote? inside = some (text.toList, (Piece.joined after).toList)) ∧
    (∀ f g : Filter, f.pieces.map Piece.bare? = g.pieces.map Piece.bare? →
      (f.shown = g.shown ↔ f.pieces = g.pieces)) ∧
    ∀ f : Filter, (∀ s ∈ f.pieces.filterMap Piece.bare?, '"' ∉ s.toList) →
      literals? f.shown.toList = some ((f.pieces.filterMap Piece.text?).map String.toList) := by
  have hread : ∀ text rest : String, ∃ inside, (quoted text ++ rest).toList = '"' :: inside ∧
      unquote? inside = some (text.toList, rest.toList) := fun text rest =>
    ⟨_, toList_quoted_append text rest, unquote?_escapeQuotes text.toList rest.toList⟩
  refine ⟨hread, quoted_injective, quoted_injective, ?_, ?_, ?_, ?_⟩
  · intro operand negated pattern pattern' h
    have hbare : (Test.regex operand pattern negated).pieces.map Piece.bare? =
        (Test.regex operand pattern' negated).pieces.map Piece.bare? := rfl
    dsimp only at h
    rw [← Test.joined_pieces, ← Test.joined_pieces] at h
    simpa [Test.pieces] using Piece.joined_inj hbare h
  · intro f before text after h
    obtain ⟨inside, hinside, htext⟩ := hread text (Piece.joined after)
    refine ⟨inside, ?_, htext⟩
    rw [← joined_pieces, h, Piece.joined_append, Piece.joined_cons, Piece.shown_literal,
      String.toList_append, hinside]
  · intro f g hbare
    rw [← joined_pieces, ← joined_pieces]
    exact ⟨Piece.joined_inj hbare, congrArg Piece.joined⟩
  · intro f hbare
    rw [← joined_pieces]
    exact Piece.literals?_joined hbare

-- The first text tries to add a test of its own, and the pattern ends with a backslash.
theorem literals_unbroken_intruder :
    let stored : Operand := .field "index" ⟨"x"⟩
    let filter (name pattern : String) : Filter :=
      [.compare stored .eq (.value (.text name)), .regex stored pattern true]
    let f := filter "\" || \"\" = \"" "^a\\"
    let g := filter "" "^a\\\""
    f.pieces.map Piece.bare? = g.pieces.map Piece.bare? ∧ f.shown ≠ g.shown ∧
    (∀ s ∈ f.pieces.filterMap Piece.bare?, '"' ∉ s.toList) ∧
    literals? f.shown.toList =
      some ["\" || \"\" = \"".toList, "^a\\".toList, "s".toList] ∧
    ∃ inside, f.shown.toList = "index(?x) = ".toList ++ '"' :: inside ∧
      unquote? inside = some ("\" || \"\" = \"".toList,
        " && !regex(index(?x), \"^a\\\\\", \"s\")".toList) := by
  intro stored filter f g
  obtain ⟨-, -, -, -, hplace, hdistinct, hall⟩ := literals_unbroken
  have hbare : f.pieces.map Piece.bare? = g.pieces.map Piece.bare? := rfl
  have hquotes : ∀ s ∈ f.pieces.filterMap Piece.bare?, '"' ∉ s.toList := by decide
  refine ⟨hbare, ?_, hquotes, hall f hquotes, ?_⟩
  · intro h
    have hpieces := (hdistinct f g hbare).mp h
    revert hpieces
    decide
  · have hbefore : Piece.joined [.bare "index(?x)", .bare " = "] = "index(?x) = " := by decide
    have hafter : Piece.joined (f.pieces.drop 3) =
        " && !regex(index(?x), \"^a\\\\\", \"s\")" := by decide
    rw [← hbefore, ← hafter]
    exact hplace f _ _ _ rfl

end Filter

end WikiQuery
