-- SUMMARY: Grammars as they are written: pieces with white space between them, read and rendered piece by piece.
import EpcTag.Proofs.Blanks
import EpcTag.Proofs.Rendering

/-!
# Written grammars

A grammar is written piece by piece: a literal between single quotes, a field by its name,
and white space behind each piece that another one follows. A literal may hold white space
and a name may hold quotes, so neither ends where the other would. Still a reader finds the
borders again: a literal ends at the first quote behind the one that opens it, a name before
the first blank, and a name does not start with a quote.
-/

namespace EpcTag

open Text (Blank isBlank)

namespace GrammarPiece

/-- A piece as a grammar writes it. -/
def written : GrammarPiece → Text
  | .literal text => '\'' :: text ++ ['\'']
  | .field name => name

/-- A literal has no quote; the name of a field is not empty, has no blank in it and does not
    start with a quote. -/
def Writable : GrammarPiece → Prop
  | .literal text => '\'' ∉ text
  | .field name => name ≠ [] ∧ (∀ c ∈ name, isBlank c = false) ∧ name.head? ≠ some '\''

instance (piece : GrammarPiece) : Decidable piece.Writable :=
  match piece with
  | .literal text => inferInstanceAs (Decidable ('\'' ∉ text))
  | .field name =>
    letI : Decidable (∀ c ∈ name, isBlank c = false) := List.decidableBAll _ name
    inferInstanceAs (Decidable (name ≠ [] ∧ (∀ c ∈ name, isBlank c = false) ∧
      name.head? ≠ some '\''))

/-- A literal shows its text, and a field the text that the context has for it. -/
def Shows (context : Context) : GrammarPiece → Text → Prop
  | .literal text, shown => shown = text
  | .field name, shown => context.field? name = some (.text shown)

end GrammarPiece

namespace Grammar

variable {grammar level text gap rest : Text} {context : Context} {piece : GrammarPiece}
  {pieces : List GrammarPiece} {bound : Nat}

/-- Pieces as a grammar writes them, with white space between two of them. -/
inductive Written : List GrammarPiece → Text → Prop
  | nil : Written [] []
  | cons {piece : GrammarPiece} {pieces : List GrammarPiece} {gap rest : Text} (hgap : Blank gap)
      (hmore : pieces ≠ [] → gap ≠ []) (hrest : Written pieces rest) :
      Written (piece :: pieces) (piece.written ++ (gap ++ rest))

/-! ## Tokens -/

/-- White space between tokens is passed over. -/
theorem tokensUpTo_gap (hgap : Blank gap) (hbound : (gap ++ rest).length ≤ bound) :
    tokensUpTo bound (gap ++ rest) = tokensUpTo (bound - gap.length) rest := by
  induction gap generalizing bound with
  | nil => rfl
  | cons c gap ih =>
    obtain ⟨bound, rfl⟩ : ∃ smaller, bound = smaller + 1 :=
      Nat.exists_eq_add_one.mpr (Nat.lt_of_lt_of_le (Nat.zero_lt_succ _) hbound)
    have hblank : isBlank c = true := hgap c List.mem_cons_self
    have hblanks : Blank gap := fun d hd => hgap d (List.mem_cons_of_mem _ hd)
    have hrest := ih hblanks (Nat.le_of_succ_le_succ hbound)
    simp only [List.cons_append, tokensUpTo, hblank, if_true, hrest, List.length_cons,
      Nat.add_sub_add_right]

/-- A literal ends at its second quote, whatever follows. -/
theorem tokensUpTo_literal (h : '\'' ∉ text) (rest : Text) (bound : Nat) :
    tokensUpTo (bound + 1) ((GrammarPiece.literal text).written ++ rest) =
      (GrammarPiece.literal text).written :: tokensUpTo bound rest := by
  have hsplit : Text.splitFirst '\'' (text ++ '\'' :: rest) = some (text, rest) :=
    Text.splitFirst_append h rest
  have hblank : isBlank '\'' = false := by decide
  simp only [GrammarPiece.written, List.cons_append, List.append_assoc, List.nil_append,
    tokensUpTo, hblank, hsplit, if_true, Bool.false_eq_true, if_false]

/-- The name of a field ends at the next blank. -/
theorem tokensUpTo_name {name : Text} (h : (GrammarPiece.field name).Writable)
    (hstop : ∀ c ∈ rest.head?, isBlank c = true) (bound : Nat) :
    tokensUpTo (bound + 1) (name ++ rest) = name :: tokensUpTo bound rest := by
  obtain ⟨hne, hvisible, hquote⟩ := h
  have hrun : ∀ c ∈ name, (!isBlank c) = true := by simpa using hvisible
  have hend : ∀ c ∈ rest.head?, (!isBlank c) = false := by simpa using hstop
  obtain ⟨c, tail, rfl⟩ := List.exists_cons_of_ne_nil hne
  have hblank : isBlank c = false := hvisible c List.mem_cons_self
  have hopen : c ≠ '\'' := by simpa using hquote
  have htake := Text.takeWhile_append_of_stop hrun hend
  have hdrop := Text.dropWhile_append_of_stop hrun hend
  rw [List.cons_append] at htake hdrop ⊢
  simp only [tokensUpTo, hblank, Bool.false_eq_true, if_false, if_neg hopen, htake, hdrop]

theorem tokensUpTo_written (h : piece.Writable) (hstop : ∀ c ∈ rest.head?, isBlank c = true)
    (bound : Nat) :
    tokensUpTo (bound + 1) (piece.written ++ rest) = piece.written :: tokensUpTo bound rest := by
  cases piece with
  | literal text => exact tokensUpTo_literal h rest bound
  | field name => exact tokensUpTo_name h hstop bound

theorem written_ne_nil (h : piece.Writable) : piece.written ≠ [] := by
  cases piece with
  | literal text => exact List.cons_ne_nil _ _
  | field name => exact h.1

/-- Behind a piece there is white space or nothing. -/
theorem Written.isBlank_of_mem_head? (hgap : Blank gap) (hmore : pieces ≠ [] → gap ≠ [])
    (hrest : Written pieces rest) : ∀ c ∈ (gap ++ rest).head?, isBlank c = true := by
  cases gap with
  | cons d gap =>
    intro c hc
    obtain rfl : d = c := by simpa using hc
    exact hgap d List.mem_cons_self
  | nil =>
    cases hrest with
    | nil => intro c hc; cases hc
    | cons => exact absurd rfl (hmore (List.cons_ne_nil _ _))

/-- The tokens of a written grammar are its pieces. -/
theorem Written.tokensUpTo_eq (h : Written pieces text)
    (hpieces : ∀ piece ∈ pieces, piece.Writable) (hbound : text.length ≤ bound) :
    tokensUpTo bound text = pieces.map GrammarPiece.written := by
  induction h generalizing bound with
  | nil => cases bound <;> rfl
  | @cons piece pieces gap rest hgap hmore hrest ih =>
    obtain ⟨hpiece, hothers⟩ := List.forall_mem_cons.mp hpieces
    have hpos := List.length_pos_iff.mpr (written_ne_nil hpiece)
    rw [List.length_append] at hbound
    obtain ⟨bound, rfl⟩ : ∃ smaller, bound = smaller + 1 := Nat.exists_eq_add_one.mpr (by omega)
    have hgapBound : (gap ++ rest).length ≤ bound := by omega
    have hrestBound : rest.length ≤ bound - gap.length := by
      rw [List.length_append] at hgapBound
      omega
    rw [tokensUpTo_written hpiece (isBlank_of_mem_head? hgap hmore hrest),
      tokensUpTo_gap hgap hgapBound, ih hothers hrestBound, List.map_cons]

/-! ## Pieces -/

/-- A piece is read as it was written. -/
theorem piece_written (h : piece.Writable) : Grammar.piece piece.written = piece := by
  cases piece with
  | literal text =>
    have hlast : ('\'' :: text ++ ['\'']).getLast? = some '\'' := List.getLast?_concat
    rw [GrammarPiece.written, Grammar.piece, if_pos ⟨by simp, rfl, hlast⟩]
    simp
  | field name => exact if_neg fun hquoted => h.2.2 hquoted.2.1

/-- A written grammar has the pieces that were written. -/
theorem Written.pieces_eq (h : Written pieces grammar)
    (hpieces : ∀ piece ∈ pieces, piece.Writable) : Grammar.pieces grammar = pieces := by
  rw [Grammar.pieces, tokens, h.tokensUpTo_eq hpieces le_rfl, List.map_map]
  exact (List.map_congr_left fun piece hmem => piece_written (hpieces piece hmem)).trans
    (List.map_id pieces)

/-! ## Rendering -/

theorem isEscapedAt_eq_false (h : ∀ type : LevelType, type.isUri = true → level ≠ type.name) :
    isEscapedAt level = false := by
  rw [isEscapedAt]
  cases htype : LevelType.ofName? level with
  | none => rfl
  | some type =>
    have hname : type.name = level := LevelType.name_eq_of_ofName? htype
    exact Bool.eq_false_iff.mpr fun huri => h type huri hname.symm

/-- Where nothing is escaped the texts of the pieces are what the pieces show. -/
theorem forall₂_shows (hescaped : isEscapedAt level = false) (hfilled : Filled context pieces) :
    List.Forall₂ (GrammarPiece.Shows context) pieces (pieces.map (pieceText level context)) := by
  refine List.forall₂_map_right_iff.mpr (List.forall₂_same.mpr fun piece hpiece => ?_)
  cases piece with
  | literal text => rfl
  | field name =>
    obtain ⟨value, hvalue⟩ := hfilled name hpiece
    rw [GrammarPiece.Shows, pieceText, hvalue, rendered, hescaped]
    rfl

/-- Where nothing is escaped a piece fails only if it is a field without a value. -/
theorem exists_field_of_renderPiece_error {error : Error}
    (h : renderPiece grammar false context piece = .error error) :
    ∃ name, piece = .field name ∧ context.field? name = none ∧
      error = .missingField (.inGrammar name grammar) := by
  cases piece with
  | literal text => cases h
  | field name =>
    rw [renderPiece] at h
    split at h
    · cases h
    · next hnone =>
      cases h
      exact ⟨name, rfl, hnone, rfl⟩

/-- Without a value for one of its fields a grammar is not rendered. -/
theorem renderPieces_of_missing {name : Text} (hmem : .field name ∈ pieces)
    (hnone : context.field? name = none) :
    ∃ missing, .field missing ∈ pieces ∧ context.field? missing = none ∧
      renderPieces grammar false context pieces =
        .error (.missingField (.inGrammar missing grammar)) := by
  cases hvalues : pieces.mapM (renderPiece grammar false context) with
  | ok values =>
    obtain ⟨value, -, hvalue⟩ := exists_build_of_mem hvalues hmem
    rw [renderPiece, hnone] at hvalue
    cases hvalue
  | error error =>
    obtain ⟨piece, hpiece, herror⟩ := exists_error_of_mapM hvalues
    obtain ⟨missing, rfl, hmissing, rfl⟩ := exists_field_of_renderPiece_error herror
    exact ⟨missing, hpiece, hmissing, by rw [renderPieces, hvalues]; rfl⟩

/-- A value that is no text is found and cannot be joined. -/
theorem renderPieces_of_not_filled (hvalues : ∀ name, .field name ∈ pieces →
    context.field? name ≠ none) (hfilled : ¬Filled context pieces) :
    renderPieces grammar false context pieces = .error (.fault .wrongType) := by
  cases hparts : pieces.mapM (renderPiece grammar false context) with
  | error error =>
    obtain ⟨piece, hpiece, herror⟩ := exists_error_of_mapM hparts
    obtain ⟨name, rfl, hnone, -⟩ := exists_field_of_renderPiece_error herror
    exact absurd hnone (hvalues name hpiece)
  | ok parts =>
    have hjoin : parts.mapM Scalar.operand = .error (.fault .wrongType) := by
      cases htexts : parts.mapM Scalar.operand with
      | error error =>
        obtain ⟨part, -, herror⟩ := exists_error_of_mapM htexts
        rw [Scalar.operand] at herror
        split at herror
        · cases herror
        · exact congrArg Except.error (Except.error.inj herror).symm
      | ok texts =>
        refine absurd (fun name hname => ?_) hfilled
        obtain ⟨part, hpart, hrender⟩ := exists_build_of_mem hparts hname
        obtain ⟨text, -, htext⟩ := exists_build_of_mem htexts hpart
        obtain rfl := Scalar.eq_text_of_operand htext
        rw [renderPiece] at hrender
        split at hrender
        · next hvalue =>
          cases hrender
          exact ⟨text, hvalue⟩
        · cases hrender
    rw [renderPieces, hparts]
    exact congrArg (fun texts => texts.bind fun texts => .ok (Text.join texts)) hjoin

theorem render_eq_error {error : Error}
    (h : renderPieces grammar (isEscapedAt level) context (Grammar.pieces grammar) =
      .error error) : (render grammar context level).outcome = .error error := by
  simp only [render, h, Traced.bind_outcome, Traced.ofExcept_outcome]
  rfl

/-- A written grammar is rendered, where nothing is escaped, as what its pieces show, one after
    the other, if the context has texts for all its fields. Otherwise a field has no value, which
    is reported, or a value is no text and cannot be joined. -/
theorem render_of_written (hwritten : Written pieces grammar)
    (hpieces : ∀ piece ∈ pieces, piece.Writable)
    (hlevel : ∀ type : LevelType, type.isUri = true → level ≠ type.name) (context : Context) :
    (Filled context pieces → ∃ shown, List.Forall₂ (GrammarPiece.Shows context) pieces shown ∧
        (render grammar context level).outcome = .ok (Text.join shown)) ∧
      ((∃ name, .field name ∈ pieces ∧ context.field? name = none) →
        ∃ name, .field name ∈ pieces ∧ context.field? name = none ∧
          (render grammar context level).outcome =
            .error (.missingField (.inGrammar name grammar))) ∧
      ((∀ name, .field name ∈ pieces → context.field? name ≠ none) → ¬Filled context pieces →
        (render grammar context level).outcome = .error (.fault .wrongType)) := by
  have hescaped := isEscapedAt_eq_false hlevel
  obtain rfl := hwritten.pieces_eq hpieces
  refine ⟨fun hfilled => ?_, ?_, fun hvalues hfilled => ?_⟩
  · exact ⟨_, forall₂_shows hescaped hfilled, render_of_filled hfilled level⟩
  · rintro ⟨name, hmem, hnone⟩
    obtain ⟨missing, hmissing, hvalue, herror⟩ :=
      @renderPieces_of_missing grammar context _ name hmem hnone
    exact ⟨missing, hmissing, hvalue, render_eq_error (hescaped ▸ herror)⟩
  · exact render_eq_error (hescaped ▸ renderPieces_of_not_filled hvalues hfilled)

/-- A literal with a space, a name with a quote, and two spaces between them: with a value for
    each name, without one for the second, and with a number for it. -/
theorem render_of_written_quotes :
    (∃ shown, List.Forall₂ (GrammarPiece.Shows [(.text "x'", .text "1"), (.text "y", .text "2")])
        [.literal "a b", .field "x'", .field "y"] shown ∧
      (render "'a b'  x' y" [(.text "x'", .text "1"), (.text "y", .text "2")]
        LevelType.legacy.name).outcome = .ok (Text.join shown)) ∧
      (∃ name, GrammarPiece.field name ∈ [.literal "a b", .field "x'", .field "y"] ∧
        Context.field? [(.text "x'", .text "1")] name = none ∧
        (render "'a b'  x' y" [(.text "x'", .text "1")] LevelType.legacy.name).outcome =
          .error (.missingField (.inGrammar name "'a b'  x' y"))) ∧
      (render "'a b'  x' y" [(.text "x'", .text "1"), (.text "y", .integer 2)]
        LevelType.legacy.name).outcome = .error (.fault .wrongType) := by
  have hwritten : Written [.literal "a b", .field "x'", .field "y"] "'a b'  x' y" :=
    @Written.cons _ _ "  " _ (by decide) (by decide)
      (@Written.cons _ _ " " _ (by decide) (by decide)
        (@Written.cons _ _ [] _ (by decide) (by decide) .nil))
  have hlevel : ∀ type : LevelType, type.isUri = true → LevelType.legacy.name ≠ type.name := by
    intro type huri
    cases type <;> first | decide | cases huri
  have hall := render_of_written hwritten (by decide) hlevel
  refine ⟨(hall _).1 ?_, (hall _).2.1 ⟨"y", by decide, by decide⟩, (hall _).2.2 ?_ ?_⟩
  · intro name hname
    obtain rfl | rfl : name = "x'".toList ∨ name = "y".toList := by simpa using hname
    · exact ⟨"1", by decide⟩
    · exact ⟨"2", by decide⟩
  · intro name hname
    obtain rfl | rfl : name = "x'".toList ∨ name = "y".toList := by simpa using hname
    · decide
    · decide
  · intro hfilled
    obtain ⟨value, hvalue⟩ := hfilled "y" (by decide)
    cases hvalue

end Grammar

end EpcTag
