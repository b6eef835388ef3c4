-- SUMMARY: Rendered grammars: piece by piece, and unescaping a rendered URI.
import EpcTag.Grammar
import EpcTag.Proofs.Building
import EpcTag.Proofs.UriEscape

/-!
# Rendering

A grammar whose fields all have texts is rendered as the texts of its pieces, one after
the other. At the level of a URI the texts of the fields are escaped one by one and the
literals stand as they are, so the whole can only be unescaped piece by piece because an
escape never reaches across the end of a piece: an escaped text has all its percent
signs in whole escapes, and a literal has none.
-/

namespace EpcTag

namespace Grammar

variable {grammar level : Text} {context : Context}

/-- A value as it is rendered at the level of a name. -/
def rendered (level value : Text) : Text :=
  if isEscapedAt level then UriEscape.escape value else value

/-- What stands for a piece at the level of a name, if the context has a text for it. -/
def pieceText (level : Text) (context : Context) : GrammarPiece → Text
  | .literal text => text
  | .field name => rendered level (((context.field? name).bind Scalar.text?).getD [])

/-- The context has texts for the fields of the pieces. -/
def Filled (context : Context) (pieces : List GrammarPiece) : Prop :=
  ∀ name, .field name ∈ pieces → ∃ value : Text, context.field? name = some (.text value)

theorem renderPiece_of_filled {piece : GrammarPiece}
    (h : ∀ name, piece = .field name → ∃ value : Text, context.field? name = some (.text value)) :
    renderPiece grammar (isEscapedAt level) context piece =
      .ok (.text (pieceText level context piece)) := by
  cases piece with
  | literal text => rfl
  | field name =>
    obtain ⟨value, hvalue⟩ := h name rfl
    rw [renderPiece, pieceText, hvalue, rendered]
    cases isEscapedAt level <;> rfl

/-- A grammar whose fields have texts is rendered as the texts of its pieces. -/
theorem render_of_filled (h : Filled context (pieces grammar)) (level : Text) :
    (render grammar context level).outcome =
      .ok (Text.join ((pieces grammar).map (pieceText level context))) := by
  have hparts : (pieces grammar).mapM (renderPiece grammar (isEscapedAt level) context) =
      .ok (((pieces grammar).map (pieceText level context)).map Scalar.text) := by
    rw [List.map_map]
    exact mapM_eq_ok_map fun piece hpiece =>
      renderPiece_of_filled fun name hname => h name (hname ▸ hpiece)
  have hrender : renderPieces grammar (isEscapedAt level) context (pieces grammar) =
      .ok (Text.join ((pieces grammar).map (pieceText level context))) := by
    rw [renderPieces, hparts]
    change (((pieces grammar).map (pieceText level context)).map Scalar.text).mapM
      Scalar.operand >>= (fun texts => pure (Text.join texts)) = _
    rw [Scalar.mapM_operand_text]
    rfl
  simp only [render, hrender, Traced.bind_outcome, Traced.ofExcept_outcome, Traced.record_outcome,
    Traced.pure_outcome]
  rfl

/-- Pieces without percent signs in their literals are unescaped piece by piece. -/
theorem unescape_join {plain : Text} {pieces : List GrammarPiece}
    (hescaped : isEscapedAt level = true) (hplain : isEscapedAt plain = false)
    (hliteral : ∀ text, .literal text ∈ pieces → '%' ∉ text) :
    UriEscape.unescape (Text.join (pieces.map (pieceText level context))) =
      Text.join (pieces.map (pieceText plain context)) := by
  induction pieces with
  | nil => rfl
  | cons piece rest ih =>
    have hrest := ih fun text hmem => hliteral text (List.mem_cons_of_mem _ hmem)
    rw [List.map_cons, List.map_cons, Text.join, Text.join, List.flatten_cons, List.flatten_cons]
    cases piece with
    | literal text =>
      have hpercent : '%' ∉ text := hliteral text List.mem_cons_self
      rw [pieceText, pieceText, UriEscape.unescape_append_of_not_mem hpercent]
      exact congrArg (text ++ ·) hrest
    | field name =>
      rw [pieceText, pieceText, rendered, rendered, hescaped, hplain, if_pos rfl,
        if_neg Bool.false_ne_true, UriEscape.unescape_escape_append]
      exact congrArg (_ ++ ·) hrest

/-- Unescaping a rendered URI gives what the grammar is rendered as where nothing is escaped:
    the texts of its pieces. -/
theorem unescape_render {type : LevelType} (huri : type.isUri = true)
    (hliteral : ∀ text, .literal text ∈ pieces grammar → '%' ∉ text)
    (hfilled : Filled context (pieces grammar)) :
    ∃ uri plain, (render grammar context type.name).outcome = .ok uri ∧
      (render grammar context LevelType.legacy.name).outcome = .ok plain ∧
      plain = Text.join ((pieces grammar).map (pieceText LevelType.legacy.name context)) ∧
      UriEscape.unescape uri = plain := by
  have hescaped : isEscapedAt type.name = true := by
    rw [isEscapedAt, LevelType.ofName?_name]
    exact huri
  exact ⟨_, _, render_of_filled hfilled _, render_of_filled hfilled _, rfl,
    unescape_join hescaped rfl hliteral⟩

/-- A percent sign before digits that a literal has, and a value that looks escaped. -/
theorem unescape_render_seam :
    ∃ uri plain,
      (render "x '2F' y" [(.text "x", .text "%"), (.text "y", .text "/%2f")]
        LevelType.tagEncoding.name).outcome = .ok uri ∧
      (render "x '2F' y" [(.text "x", .text "%"), (.text "y", .text "/%2f")]
        LevelType.legacy.name).outcome = .ok plain ∧
      plain = "%2F/%2f".toList ∧ UriEscape.unescape uri = plain := by
  have hpieces : pieces "x '2F' y" = [.field "x", .literal "2F", .field "y"] := by decide
  obtain ⟨uri, plain, huri, hplain, htext, hunescape⟩ :=
    @unescape_render "x '2F' y" [(.text "x", .text "%"), (.text "y", .text "/%2f")] .tagEncoding rfl
      (by
        rw [hpieces]
        rintro text htext
        obtain rfl : text = "2F".toList := by simpa using htext
        decide)
      (by
        rw [hpieces]
        rintro name hname
        obtain rfl | rfl : name = "x".toList ∨ name = "y".toList := by simpa using hname
        · exact ⟨"%".toList, by decide⟩
        · exact ⟨"/%2f".toList, by decide⟩)
  exact ⟨uri, plain, huri, hplain, htext.trans (by decide), hunescape⟩

end Grammar

end EpcTag
