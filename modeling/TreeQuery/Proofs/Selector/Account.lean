import TreeQuery.Proofs.Selector.WrittenCompound
import TreeQuery.Selector.Cursor
/-!
# What becomes of every character of a token

A token need not be a compound selector as one would write it. Whatever it is, each of its
characters has its place in an account (`Account.Of`), and the account says what is read
(`outcome_parse_of_account`). Attribute clauses are taken out wherever one of their forms stands,
even in the middle of a name (`AttributeClause.TakenOut`). What they leave is a front, and behind it
stretches: pseudo-classes, ids and classes, and stray characters, which start none of these
(`Stretch.Fits`). Every clause and every stretch is a condition of what is read, and stray
characters go unnoticed, unless a bracket is left: then nothing is read.
-/
namespace TreeQuery

open AttributeClause (Form)
open Compound

namespace AttributeClause

/-- Taking attribute clauses out of a text, wherever one of their forms stands: the forms from left
to right, and the characters that are left. -/
inductive TakenOut : List Char → List Form → List Char → Prop
  /-- Nothing is taken out of the empty text. -/
  | nil : TakenOut [] [] []
  /-- A form stands at the front. -/
  | form (form : Form) {text left : List Char} {forms : List Form}
    (later : TakenOut text forms left) : TakenOut (form.text ++ text) (form :: forms) left
  /-- No form stands at the front, and the first character is left. -/
  | left {character : Char} {text left : List Char} {forms : List Form}
    (formless : ∀ (form : Form) (rest : List Char), character :: text ≠ form.text ++ rest)
    (later : TakenOut text forms left) : TakenOut (character :: text) forms (character :: left)

/-- No form begins in a text without an opening bracket. -/
theorem TakenOut.append {front text left : List Char} {forms : List Form} (plain : '[' ∉ front)
    (later : TakenOut text forms left) : TakenOut (front ++ text) forms (front ++ left) := by
  induction front with
  | nil => exact later
  | cons character others ih =>
    refine .left (fun form rest same => plain ?_)
      (ih fun inside => plain (List.mem_cons_of_mem _ inside))
    rw [Form.text, List.cons_append, List.cons.injEq] at same
    rw [same.1]
    exact List.mem_cons_self

/-- What is taken out is what the clauses are cut into. -/
theorem TakenOut.cut_eq {text left : List Char} {forms : List Form}
    (takenOut : TakenOut text forms left) : piece.cut text = (forms.map Form.test, left) := by
  induction takenOut with
  | nil => exact Text.Piece.cut_nil piece
  | form form _ ih =>
    rw [Text.Piece.cut_of_read (read_eq_some_iff.mpr ⟨form, rfl, rfl⟩), ih, List.map_cons]
  | left formless _ ih =>
    rw [Text.Piece.cut_cons_of_read_eq_none (read_eq_none_iff.mpr formless), ih]

/-- Clauses can be taken out of any text. -/
theorem exists_takenOut (text : List Char) : ∃ forms left, TakenOut text forms left := by
  match text with
  | [] => exact ⟨[], [], .nil⟩
  | character :: behind =>
    cases found : piece.read (character :: behind) with
    | none =>
      obtain ⟨forms, left, later⟩ := exists_takenOut behind
      exact ⟨forms, character :: left, .left (read_eq_none_iff.mp found) later⟩
    | some result =>
      obtain ⟨test, rest⟩ := result
      have := piece.shorter found
      obtain ⟨form, whole, _⟩ := read_eq_some_iff.mp found
      obtain ⟨forms, left, later⟩ := exists_takenOut rest
      exact ⟨form :: forms, left, whole ▸ .form form later⟩
termination_by text.length
decreasing_by all_goals simp_all

end AttributeClause

/-- Whether a front is all of a text that can be read as one: nothing when no tag begins there, and
a tag with all of its characters. -/
def WrittenHead.Fits : WrittenHead → List Char → Prop
  | absent, behind => Text.Stops Char.isAlphanum behind
  | any, _ => True
  | tag _ _ _, behind => Text.Stops isNameCharacter behind

/-- A stretch of what attribute clauses leave of a token, behind the front. -/
inductive Stretch where
  /-- A pseudo-class, with what stands behind its colon. -/
  | pseudo (clause : List Char)
  /-- A name behind the mark of an id or of a class. -/
  | named (mark : Char) (known : mark = '#' ∨ mark = '.') (name : Text.FilledRun isNameCharacter)
  /-- A character that starts none of these. -/
  | stray (character : Char)

namespace Stretch

/-- The text of a stretch. -/
def text : Stretch → List Char
  | pseudo clause => ':' :: clause
  | named mark _ name => mark :: name.text
  | stray character => [character]

/-- What stands behind the colon of a pseudo-class. -/
def clause? : Stretch → Option (List Char)
  | pseudo clause => some clause
  | _ => none

/-- The name that stands behind a mark. -/
def nameBehind? (mark : Char) : Stretch → Option String
  | named other _ name => if mark = other then some (String.ofList name.text) else none
  | _ => none

/-- What is left of a stretch without pseudo-classes. -/
def withoutPseudo : Stretch → List Char
  | pseudo _ => []
  | stretch => stretch.text

/-- Whether a stretch is what can be read in front of a text: a pseudo-class or a name is all of it
that stands there, and a stray character starts neither. -/
def Fits : Stretch → List Char → Prop
  | pseudo clause, behind => clause ≠ [] ∧ PseudoClass.Clause clause ∧ PseudoClass.Ends behind
  | named _ _ _, behind => Text.Stops isNameCharacter behind
  | stray character, behind => (character = ':' → PseudoClass.Ends behind) ∧
      (character = '#' ∨ character = '.' → Text.Stops isNameCharacter behind)

/-- Each of a row of stretches fits in front of those behind it. -/
def AllFit : List Stretch → Prop
  | [] => True
  | stretch :: others => stretch.Fits (others.flatMap text) ∧ AllFit others

/-- Some stretch can be read at the front of a text. -/
theorem exists_front (character : Char) (rest : List Char) :
    ∃ (stretch : Stretch) (behind : List Char), character :: rest = stretch.text ++ behind ∧
      stretch.Fits behind ∧ behind.length ≤ rest.length := by
  by_cases colon : character = ':'
  · obtain ⟨clause, behind, rfl, holds, ends⟩ := PseudoClass.exists_clause rest
    by_cases filled : clause = []
    · exact ⟨.stray character, behind, by simp [filled, text], ⟨fun _ => ends, by simp [colon]⟩,
        by simp⟩
    · exact ⟨.pseudo clause, behind, by simp [colon, text], ⟨filled, holds, ends⟩, by simp⟩
  by_cases known : character = '#' ∨ character = '.'
  · by_cases filled : rest.takeWhile isNameCharacter = []
    · have stops : Text.Stops isNameCharacter rest := by
        have left := Text.stops_dropWhile isNameCharacter rest
        have whole := List.takeWhile_append_dropWhile (p := isNameCharacter) (l := rest)
        rw [filled, List.nil_append] at whole
        exact whole ▸ left
      exact ⟨.stray character, rest, rfl, ⟨fun same => absurd same colon, fun _ => stops⟩,
        Nat.le_refl _⟩
    · obtain ⟨name, _, whole⟩ := Text.FilledRun.exists_dropWhile filled
      exact ⟨.named character known name, rest.dropWhile isNameCharacter,
        congrArg (character :: ·) whole, Text.stops_dropWhile isNameCharacter rest,
        (List.dropWhile_sublist _).length_le⟩
  · exact ⟨.stray character, rest, rfl,
      ⟨fun same => absurd same colon, fun same => absurd same known⟩, Nat.le_refl _⟩

/-- Any text is a row of stretches that fit. -/
theorem exists_allFit (whole : List Char) :
    ∃ stretches, whole = stretches.flatMap text ∧ AllFit stretches := by
  match whole with
  | [] => exact ⟨[], rfl, trivial⟩
  | character :: rest =>
    obtain ⟨stretch, behind, split, fits, shorter⟩ := exists_front character rest
    obtain ⟨others, rfl, fit⟩ := exists_allFit behind
    exact ⟨stretch :: others, split, fits, fit⟩
termination_by whole.length
decreasing_by exact Nat.lt_succ_of_le shorter

/-- What ends a pseudo-class stops a kind of characters that start no part and open no argument. -/
theorem stops_of_ends {property : Char → Bool} {behind : List Char}
    (plain : ∀ character, property character →
      PseudoClass.startsPart character = false ∧ character ≠ '(')
    (ends : PseudoClass.Ends behind) : Text.Stops property behind := by
  cases behind with
  | nil => exact Text.stops_nil
  | cons character rest =>
    refine Text.stops_cons (Bool.eq_false_iff.mpr fun holds => ?_)
    obtain ⟨starts, opens⟩ := plain character holds
    rcases ends with part | ⟨argument, _⟩
    · rw [starts] at part
      cases part
    · exact opens argument

/-- Where stretches stop a kind of characters, they still do without pseudo-classes. -/
theorem stops_withoutPseudo {property : Char → Bool}
    (plain : ∀ character, property character →
      PseudoClass.startsPart character = false ∧ character ≠ '(')
    {stretches : List Stretch} (fit : AllFit stretches)
    (stops : Text.Stops property (stretches.flatMap text)) :
    Text.Stops property (stretches.flatMap withoutPseudo) := by
  induction stretches with
  | nil => exact Text.stops_nil
  | cons stretch others ih =>
    obtain ⟨fits, later⟩ := fit
    cases stretch with
    | pseudo clause => exact ih later (stops_of_ends plain fits.2.2)
    | named mark known name => exact Text.stops_cons (stops mark rfl)
    | stray character => exact Text.stops_cons (stops character rfl)

/-- A name character starts no part and opens no argument. -/
theorem plain_of_isNameCharacter {character : Char} (name : isNameCharacter character) :
    PseudoClass.startsPart character = false ∧ character ≠ '(' :=
  ⟨PseudoClass.startsPart_eq_false_of_isNameCharacter name, ne_of_isNameCharacter name rfl⟩

/-- The second round cuts out the pseudo-classes of stretches that fit. -/
theorem cut_pseudos {stretches : List Stretch} (fit : AllFit stretches) :
    PseudoClass.piece.cut (stretches.flatMap text) =
      (stretches.filterMap clause?, stretches.flatMap withoutPseudo) := by
  induction stretches with
  | nil => exact Text.Piece.cut_nil _
  | cons stretch others ih =>
    obtain ⟨fits, later⟩ := fit
    have behind := ih later
    rw [List.flatMap_cons, List.flatMap_cons, List.filterMap_cons]
    cases stretch with
    | pseudo clause =>
      obtain ⟨filled, holds, ends⟩ := fits
      exact (Text.Piece.cut_of_read (holds.read_append filled ends)).trans (by rw [behind]; rfl)
    | named mark known name =>
      have inert : ∀ character ∈ mark :: name.text, ∀ rest,
          PseudoClass.piece.read (character :: rest) = none := by
        intro character inside
        apply read_pseudo_eq_none
        rcases List.mem_cons.mp inside with rfl | inside
        · rcases known with rfl | rfl <;> decide
        · exact ne_of_isNameCharacter (name.holds character inside) (by decide)
      exact (Text.Piece.cut_append inert _).trans (by rw [behind]; rfl)
    | stray character =>
      have missing : PseudoClass.piece.read (character :: others.flatMap text) = none := by
        by_cases colon : character = ':'
        · rw [colon]
          exact PseudoClass.read_eq_none_of_ends (fits.1 colon)
        · exact read_pseudo_eq_none colon _
      exact (Text.Piece.cut_cons_of_read_eq_none missing).trans (by rw [behind]; rfl)

/-- The third round finds the names of stretches that fit. -/
theorem pieces_marked {mark : Char} (known : mark = '#' ∨ mark = '.') {stretches : List Stretch}
    (fit : AllFit stretches) :
    (marked mark).pieces (stretches.flatMap withoutPseudo) =
      stretches.filterMap (nameBehind? mark) := by
  induction stretches with
  | nil => rw [Text.Piece.pieces, List.flatMap_nil, Text.Piece.cut_nil, List.filterMap_nil]
  | cons stretch others ih =>
    obtain ⟨fits, later⟩ := fit
    have behind := ih later
    rw [List.flatMap_cons, List.filterMap_cons]
    cases stretch with
    | pseudo clause => exact behind
    | named other otherKnown name =>
      have plain : isNameCharacter mark = false := by rcases known with rfl | rfl <;> decide
      have stops := stops_withoutPseudo (fun _ => plain_of_isNameCharacter) later fits
      refine (pieces_marked_append plain name stops).trans ?_
      rw [behind]
      by_cases same : mark = other <;> simp [nameBehind?, same]
    | stray character =>
      have missing :
          (marked mark).read (character :: others.flatMap withoutPseudo) = none := by
        by_cases same : character = mark
        · have stops := stops_withoutPseudo (fun _ => plain_of_isNameCharacter) later
            (fits.2 (same ▸ known))
          rw [same]
          exact read_marked_eq_none_of_stops stops
        · exact read_marked_eq_none same _
      rw [Text.Piece.pieces] at behind ⊢
      exact (congrArg Prod.fst (Text.Piece.cut_cons_of_read_eq_none missing)).trans behind

end Stretch

/-- A front that is all that can be read as one is read back when the pseudo-classes behind it are
gone. -/
theorem WrittenHead.tagOf_withoutPseudo {head : WrittenHead} {stretches : List Stretch}
    (fit : Stretch.AllFit stretches) (fits : head.Fits (stretches.flatMap Stretch.text)) :
    tagOf (head.text ++ stretches.flatMap Stretch.withoutPseudo) = head.test := by
  cases head with
  | absent =>
    have stops := Stretch.stops_withoutPseudo (fun _ alphanumeric =>
      Stretch.plain_of_isNameCharacter (isNameCharacter_of_isAlphanum alphanumeric)) fit fits
    rw [text, List.nil_append, test]
    generalize stretches.flatMap Stretch.withoutPseudo = left at stops ⊢
    cases left with
    | nil => rfl
    | cons character rest => simp [tagOf, stops character rfl]
  | any => rfl
  | tag first alphanumeric rest =>
    have stops := Stretch.stops_withoutPseudo (fun _ => Stretch.plain_of_isNameCharacter) fit fits
    exact tagOf_append (.tag first alphanumeric rest) stops

/-- Any text is a front, which is all that can be read as one, and what stands behind it. -/
theorem WrittenHead.exists_fits (text : List Char) :
    ∃ (head : WrittenHead) (behind : List Char), text = head.text ++ behind ∧ head.Fits behind := by
  cases text with
  | nil => exact ⟨.absent, [], rfl, Text.stops_nil⟩
  | cons first rest =>
    by_cases alphanumeric : first.isAlphanum
    · exact ⟨.tag first alphanumeric (.atStart isNameCharacter rest),
        rest.dropWhile isNameCharacter,
        congrArg (first :: ·) (Text.Run.atStart_append isNameCharacter rest).symm,
        Text.stops_dropWhile isNameCharacter rest⟩
    · exact ⟨.absent, first :: rest, rfl, Text.stops_cons (Bool.eq_false_iff.mpr alphanumeric)⟩

/-- An account of a token: what its characters are. -/
structure Account where
  /-- The attribute clauses, from left to right. -/
  forms : List Form
  /-- The front of what they leave. -/
  head : WrittenHead
  /-- The stretches behind the front. -/
  stretches : List Stretch

namespace Account

/-- What the attribute clauses leave. -/
def left (account : Account) : List Char :=
  account.head.text ++ account.stretches.flatMap Stretch.text

/-- An account is one of a token: the clauses are taken out of it wherever one of their forms stands,
and what is left is the front and the stretches. -/
structure Of (account : Account) (token : List Char) : Prop where
  /-- Where the clauses are. -/
  takenOut : AttributeClause.TakenOut token account.forms account.left
  /-- The front is all that can be read as one. -/
  head : account.head.Fits (account.stretches.flatMap Stretch.text)
  /-- The stretches are what can be read, one after another. -/
  stretches : Stretch.AllFit account.stretches

/-- The names behind a mark, from left to right. -/
def names (account : Account) (mark : Char) : List String :=
  account.stretches.filterMap (Stretch.nameBehind? mark)

/-- What is read of a token by an account of it. A bracket that is left is an error, and so is the
first pseudo-class that cannot be read, and a second id. Otherwise every clause and every stretch
is asked for, the stray characters apart. -/
def outcome (account : Account) (token : List Char) : Except SelectorError Compound :=
  if account.left.any isBracket then .error (.malformed (String.ofList token))
  else do
    let pseudos ← (account.stretches.filterMap Stretch.clause?).mapM fun clause =>
      (PseudoClass.parse clause).outcome
    if 1 < (account.names '#').length then .error (.multipleIds (String.ofList token))
    else .ok {
      filter := {
        tag := account.head.test
        id := (account.names '#').head?
        classes := (account.names '.').eraseDups }
      predicates := account.forms.map (.attributeTest ·.test) ++ pseudos.map .pseudoClass }

/-- There is an account of every token. -/
theorem exists_of (token : List Char) : ∃ account : Account, account.Of token := by
  obtain ⟨forms, left, takenOut⟩ := AttributeClause.exists_takenOut token
  obtain ⟨head, behind, rfl, fits⟩ := WrittenHead.exists_fits left
  obtain ⟨stretches, rfl, fit⟩ := Stretch.exists_allFit behind
  exact ⟨⟨forms, head, stretches⟩, takenOut, fits, fit⟩

variable {account : Account} {token : List Char} (isOf : account.Of token)

include isOf

/-- The first round leaves what the account says. -/
theorem Of.withoutAttributes_eq : withoutAttributes token = account.left := by
  rw [withoutAttributes, Text.Piece.without, isOf.takenOut.cut_eq]

/-- The second round on a token with an account. -/
theorem Of.cut_pseudos : PseudoClass.piece.cut account.left =
    (account.stretches.filterMap Stretch.clause?,
      account.head.text ++ account.stretches.flatMap Stretch.withoutPseudo) := by
  have inert : ∀ character ∈ account.head.text, ∀ rest,
      PseudoClass.piece.read (character :: rest) = none := fun character inside =>
    read_pseudo_eq_none (account.head.ne_of_mem_text _ (by decide) (by decide) character inside)
  rw [left, Text.Piece.cut_append inert, Stretch.cut_pseudos isOf.stretches]

/-- The third round on a token with an account. -/
theorem Of.pieces_marked {mark : Char} (known : mark = '#' ∨ mark = '.') :
    (marked mark).pieces (withoutPredicates token) = account.names mark := by
  have inert : ∀ character ∈ account.head.text, ∀ rest,
      (marked mark).read (character :: rest) = none := fun character inside => by
    refine read_marked_eq_none (account.head.ne_of_mem_text mark ?_ ?_ character inside)
    all_goals rcases known with rfl | rfl <;> decide
  rw [withoutPredicates, Text.Piece.without, isOf.withoutAttributes_eq, isOf.cut_pseudos,
    Text.Piece.pieces, Text.Piece.cut_append inert]
  exact Stretch.pieces_marked known isOf.stretches

/-- A token is read as an account of it says. -/
theorem Of.outcome_parse : (Compound.parse token).outcome = account.outcome token := by
  have clauses : AttributeClause.piece.pieces token = account.forms.map Form.test := by
    rw [Text.Piece.pieces, isOf.takenOut.cut_eq]
  have pseudos : PseudoClass.piece.pieces account.left =
      account.stretches.filterMap Stretch.clause? := by
    rw [Text.Piece.pieces, isOf.cut_pseudos]
  have tag : tagOf (withoutPredicates token) = account.head.test := by
    rw [withoutPredicates, Text.Piece.without, isOf.withoutAttributes_eq, isOf.cut_pseudos]
    exact account.head.tagOf_withoutPseudo isOf.stretches isOf.head
  rw [Compound.parse, outcome]
  simp only [isOf.withoutAttributes_eq, clauses, pseudos, tag, isOf.pieces_marked (.inl rfl),
    isOf.pieces_marked (.inr rfl)]
  by_cases bracket : account.left.any isBracket
  · rw [if_pos bracket, if_pos bracket]
    rfl
  rw [if_neg bracket, if_neg bracket, Diagnosed.outcome_bind, Diagnosed.outcome_mapM]
  apply bind_congr
  intro values
  by_cases several : 1 < (account.names '#').length
  · rw [if_pos several, if_pos several]
    rfl
  · rw [if_neg several, if_neg several, List.map_map]
    rfl

end Account

/-- Every token has an account, and is read as any account of it says: it is refused when a bracket
is left, when a pseudo-class cannot be read and when there are several ids, and otherwise every
attribute clause, pseudo-class, id and class of the account and its front are conditions of what is
read, and stray characters alone are none. -/
theorem outcome_parse_of_account (token : List Char) :
    (∃ account : Account, account.Of token) ∧
      ∀ account : Account, account.Of token →
        (Compound.parse token).outcome = account.outcome token :=
  ⟨Account.exists_of token, fun _ isOf => isOf.outcome_parse⟩

/-- A dot without a name behind it goes unnoticed: the token is handed out and read as its tag
alone, though no account makes it a row of clauses, pseudo-classes, ids and classes behind a tag. -/
theorem outcome_parse_strayDot :
    (Cursor.ofSelector "li.").takeToken.1 = .ok "li.".toList ∧
    (Compound.parse "li.".toList).outcome = .ok ⟨⟨.named "li", none, []⟩, []⟩ ∧
    ∀ account : Account, account.Of "li.".toList → .stray '.' ∈ account.stretches := by
  have kept : AttributeClause.TakenOut ['l', 'i', '.'] [] ['l', 'i', '.'] :=
    .append (show '[' ∉ ['l', 'i', '.'] by decide) .nil
  refine ⟨rfl, ?_, fun account isOf => ?_⟩
  · let account : Account := ⟨[], .tag 'l' rfl (.ofText ['i'] rfl), [.stray '.']⟩
    have isOf : account.Of ['l', 'i', '.'] :=
      ⟨kept, Text.stops_cons rfl, ⟨nofun, fun _ => Text.stops_nil⟩, trivial⟩
    exact isOf.outcome_parse
  · have whole : account.left = ['l', 'i', '.'] :=
      congrArg Prod.snd (isOf.takenOut.cut_eq.symm.trans kept.cut_eq)
    have dot : '.' ∈ account.left := by simp [whole]
    have outside : '.' ∉ account.head.text := fun inside =>
      account.head.ne_of_mem_text '.' (by decide) (by decide) '.' inside rfl
    obtain ⟨stretch, listed, inside⟩ :=
      List.mem_flatMap.mp ((List.mem_append.mp dot).resolve_left outside)
    have part : stretch.text <:+: ['l', 'i', '.'] := by
      rw [← whole, Account.left, List.flatMap_def]
      exact (List.infix_of_mem_flatten (List.mem_map_of_mem listed)).trans
        (List.suffix_append _ _).isInfix
    cases stretch with
    | pseudo clause => simpa using part.mem List.mem_cons_self
    | named mark known name =>
      obtain ⟨first, rest, filled⟩ := List.exists_cons_of_ne_nil name.filled
      have marked : mark = '.' := by
        rcases List.mem_cons.mp inside with same | named
        · exact same.symm
        · exact absurd named (name.not_mem '.' (by decide))
      rw [Stretch.text, marked, filled] at part
      simp [List.infix_cons_iff] at part
    | stray character =>
      rwa [List.mem_singleton.mp inside]

end TreeQuery
