-- SUMMARY: How the parameter list of a rule is read: slots between commas, and what is read from them.
import EpcTag.Rule.Parser
import EpcTag.Proofs.Blanks

/-!
# Parameter lists

Commas outside quotes cut a parameter list into slots. The reader takes from a slot all
quoted literals at its start and then what is left up to the next comma, unless that is
blank. So a slot is meant to hold one parameter, but it can hold none, or several: nothing
asks for a comma behind a quoted literal. Whatever the text, it is cut into slots in one way.
-/

namespace EpcTag

namespace RuleParam

open Text (Blank isBlank trim trimStart)

variable {margin text inner rest tail body : Text} {quote : Char}
  {slots slots' : List (List RuleParam)}

/-! ## Quotes -/

/-- A literal stands between two quotes of one kind. -/
def IsQuote (c : Char) : Prop := c = '\'' ∨ c = '"'

theorem IsQuote.isBlank (h : IsQuote quote) : isBlank quote = false := by
  rcases h with rfl | rfl <;> decide

theorem IsQuote.ne_comma (h : IsQuote quote) : quote ≠ ',' := by
  rcases h with rfl | rfl <;> decide

/-- The first visible character is a quote, and it comes again. -/
def Opens (text : Text) : Prop :=
  ∃ margin quote rest, Blank margin ∧ IsQuote quote ∧ quote ∈ rest ∧ text = margin ++ quote :: rest

theorem opens_quoted (hmargin : Blank margin) (hquote : IsQuote quote) (inner rest : Text) :
    Opens (margin ++ quote :: (inner ++ quote :: rest)) :=
  ⟨margin, quote, inner ++ quote :: rest, hmargin, hquote, by simp, rfl⟩

/-- The literal ends at the first quote like the one that opens it. -/
theorem Opens.exists_quoted (h : Opens text) :
    ∃ margin quote inner rest, Blank margin ∧ IsQuote quote ∧ quote ∉ inner ∧
      text = margin ++ quote :: (inner ++ quote :: rest) := by
  obtain ⟨margin, quote, rest, hmargin, hquote, hmem, rfl⟩ := h
  obtain ⟨inner, after, rfl, hinner⟩ := List.eq_append_cons_of_mem hmem
  exact ⟨margin, quote, inner, after, hmargin, hquote, hinner, rfl⟩

theorem Opens.append_left (hmargin : Blank margin) (h : Opens text) : Opens (margin ++ text) := by
  obtain ⟨before, quote, rest, hbefore, hquote, hmem, rfl⟩ := h
  exact ⟨margin ++ before, quote, rest, hmargin.append hbefore, hquote, hmem, by simp⟩

theorem Opens.append (h : Opens text) (rest : Text) : Opens (text ++ rest) := by
  obtain ⟨margin, quote, after, hmargin, hquote, hmem, rfl⟩ := h
  exact ⟨margin, quote, after ++ rest, hmargin, hquote, List.mem_append_left _ hmem, by simp⟩

theorem not_opens_of_visible {c : Char} (hmargin : Blank margin) (hblank : isBlank c = false)
    (hquote : ¬IsQuote c) (rest : Text) : ¬Opens (margin ++ c :: rest) := by
  rintro ⟨before, quote, after, hbefore, hopen, -, heq⟩
  have htrim := congrArg trimStart heq
  rw [Text.trimStart_visible hbefore hopen.isBlank, Text.trimStart_visible hmargin hblank] at htrim
  cases htrim
  exact hquote hopen

theorem not_opens_comma (hmargin : Blank margin) (rest : Text) : ¬Opens (margin ++ ',' :: rest) :=
  not_opens_of_visible hmargin (by decide) (by simp [IsQuote]) rest

theorem not_opens_of_blank (h : Blank text) : ¬Opens text := by
  rintro ⟨margin, quote, rest, -, hquote, -, rfl⟩
  exact h.not_mem hquote.isBlank (by simp)

/-- The reader finds the literal and goes on behind the blanks that follow it. -/
theorem quotedToken?_append (hmargin : Blank margin) (hquote : IsQuote quote)
    (hinner : quote ∉ inner) (rest : Text) :
    RuleCall.quotedToken? (margin ++ quote :: (inner ++ quote :: rest)) =
      some (quote :: inner ++ [quote], trimStart rest) := by
  rw [RuleCall.quotedToken?, Text.trimStart_visible hmargin hquote.isBlank]
  dsimp only
  rw [if_pos (show quote = '\'' ∨ quote = '"' from hquote), Text.splitFirst_append hinner]
  rfl

theorem quotedToken?_of_not_opens (h : ¬Opens text) : RuleCall.quotedToken? text = none := by
  obtain ⟨margin, hmargin, htext⟩ := Text.exists_trimStart text
  rw [RuleCall.quotedToken?]
  cases hstart : trimStart text with
  | nil => rfl
  | cons quote rest =>
    dsimp only
    split
    · next hquote =>
      have hrest : quote ∉ rest := fun hmem =>
        h ⟨margin, quote, rest, hmargin, hquote, hmem, hstart ▸ htext⟩
      rw [Text.splitFirst_of_not_mem hrest]
      rfl
    · rfl

/-! ## Parameters -/

/-- What a text without a literal in front of it stands for: an integer or the name of a
    field, or nothing if it is blank. -/
def bare (text : Text) : List RuleParam :=
  if trim text = [] then []
  else if isInteger (trim text) then [.literal (trim text)]
  else [.field (trim text)]

theorem bare_of_blank (h : Blank text) : bare text = [] :=
  if_pos (Text.trim_of_blank h)

theorem bare_congr {text' : Text} (h : trim text = trim text') : bare text = bare text' := by
  rw [bare, bare, h]

theorem parse_quoted (hquote : IsQuote quote) (inner : Text) :
    trim (quote :: inner ++ [quote]) = quote :: inner ++ [quote] ∧
      parse (quote :: inner ++ [quote]) = .literal inner := by
  have htrim : trim (quote :: inner ++ [quote]) = quote :: inner ++ [quote] := by
    have hstart := Text.trimStart_visible (List.forall_mem_nil _) hquote.isBlank (inner ++ [quote])
    have hend := Text.dropWhileEnd_append_of_stop (List.forall_mem_nil _) hquote.isBlank
      (quote :: inner)
    exact (congrArg (Text.dropWhileEnd isBlank) hstart).trans hend
  refine ⟨htrim, ?_⟩
  rw [parse, htrim, if_pos]
  · simp
  · refine ⟨by simp, ?_, ?_⟩
    · rw [List.getLast?_append]
      rfl
    · simpa [IsQuote] using hquote

/-- A token that no quoted literal opens is no quoted literal. -/
theorem parse_of_not_opens (h : ¬Opens text) :
    (if trim text ≠ [] then [parse text] else []) = bare text := by
  by_cases hblank : trim text = []
  · rw [bare, if_pos hblank, if_neg (not_not.mpr hblank)]
  rw [bare, if_neg hblank, if_pos hblank, parse]
  have hquoted : ¬(2 ≤ (trim text).length ∧ (trim text).head? = (trim text).getLast? ∧
      ((trim text).head? = some '\'' ∨ (trim text).head? = some '"')) := by
    rintro ⟨hlength, hends, hhead⟩
    obtain ⟨before, after, hbefore, -, htext⟩ := Text.exists_trim text
    obtain ⟨quote, rest, htrim⟩ := List.exists_cons_of_ne_nil hblank
    rw [htrim] at hlength hends hhead htext
    have hrest : rest ≠ [] := by
      rintro rfl
      simp at hlength
    have hlast : quote ∈ rest := by
      rw [List.head?_cons, List.getLast?_cons, Option.some.injEq] at hends
      rw [hends]
      exact List.mem_of_getLast? (by simp [List.getLast?_eq_some_getLast hrest])
    exact h ⟨before, quote, rest ++ after, hbefore, by simpa [IsQuote] using hhead,
      List.mem_append_left _ hlast, htext⟩
  rw [if_neg hquoted]
  split <;> rfl

/-! ## Slots -/

/-- The slots of a parameter list with the parameters that are read from them. -/
inductive Listing : Text → List (List RuleParam) → Prop
  | quoted {margin inner rest : Text} {quote : Char} {slot : List RuleParam}
      {slots : List (List RuleParam)} (hmargin : Blank margin) (hquote : IsQuote quote)
      (hinner : quote ∉ inner) (hrest : Listing rest (slot :: slots)) :
      Listing (margin ++ quote :: (inner ++ quote :: rest)) ((.literal inner :: slot) :: slots)
  | last {tail : Text} (hcomma : ',' ∉ tail) (hopens : ¬Opens tail) : Listing tail [bare tail]
  | comma {tail rest : Text} {slots : List (List RuleParam)} (hcomma : ',' ∉ tail)
      (hopens : ¬Opens (tail ++ ',' :: rest)) (hrest : Listing rest slots) :
      Listing (tail ++ ',' :: rest) (bare tail :: slots)

theorem Listing.exists_cons (h : Listing body slots) : ∃ slot rest, slots = slot :: rest := by
  cases h with
  | quoted => exact ⟨_, _, rfl⟩
  | last => exact ⟨_, _, rfl⟩
  | comma => exact ⟨_, _, rfl⟩

/-- Every text has slots. -/
theorem exists_listing (body : Text) : ∃ slots, Listing body slots := by
  induction hlength : body.length using Nat.strong_induction_on generalizing body with
  | _ length ih =>
    by_cases hopens : Opens body
    · obtain ⟨margin, quote, inner, rest, hmargin, hquote, hinner, rfl⟩ := hopens.exists_quoted
      obtain ⟨slots, hrest⟩ := ih rest.length (by simp at hlength; omega) rest rfl
      obtain ⟨slot, slots, rfl⟩ := hrest.exists_cons
      exact ⟨_, .quoted hmargin hquote hinner hrest⟩
    · by_cases hcomma : ',' ∈ body
      · obtain ⟨tail, rest, rfl, htail⟩ := List.eq_append_cons_of_mem hcomma
        obtain ⟨slots, hrest⟩ := ih rest.length (by simp at hlength; omega) rest rfl
        exact ⟨_, .comma htail hopens hrest⟩
      · exact ⟨_, .last hcomma hopens⟩

theorem Listing.of_quoted (hmargin : Blank margin) (hquote : IsQuote quote) (hinner : quote ∉ inner)
    (h : Listing (margin ++ quote :: (inner ++ quote :: rest)) slots) :
    ∃ slot others, slots = (.literal inner :: slot) :: others ∧ Listing rest (slot :: others) := by
  have hopens := opens_quoted hmargin hquote inner rest
  generalize hbody : margin ++ quote :: (inner ++ quote :: rest) = body at h hopens
  cases h with
  | quoted hmargin' hquote' hinner' hrest =>
    have htrim := congrArg trimStart hbody
    rw [Text.trimStart_visible hmargin hquote.isBlank,
      Text.trimStart_visible hmargin' hquote'.isBlank] at htrim
    obtain ⟨rfl, hcut⟩ := List.cons.inj htrim
    obtain ⟨rfl, rfl⟩ := Text.eq_of_append_mark hinner hinner' hcut
    exact ⟨_, _, rfl, hrest⟩
  | last _ hnot => exact absurd hopens hnot
  | comma _ hnot _ => exact absurd hopens hnot

/-- A text has its slots in one way only. -/
theorem Listing.unique (h : Listing body slots) (h' : Listing body slots') : slots = slots' := by
  induction h generalizing slots' with
  | quoted hmargin hquote hinner _ ih =>
    obtain ⟨slot, others, rfl, hrest⟩ := h'.of_quoted hmargin hquote hinner
    obtain ⟨rfl, rfl⟩ := List.cons.inj (ih hrest)
    rfl
  | last hcomma hopens =>
    cases h' with
    | quoted hmargin hquote _ _ => exact absurd (opens_quoted hmargin hquote _ _) hopens
    | last => rfl
    | comma => exact absurd (by simp) hcomma
  | @comma tail rest _ hcomma hopens _ ih =>
    generalize hbody : tail ++ ',' :: rest = body at h' hopens
    cases h' with
    | quoted hmargin hquote _ _ => exact absurd (opens_quoted hmargin hquote _ _) hopens
    | last hnot => exact absurd (hbody ▸ by simp) hnot
    | comma hcomma' _ hrest =>
      obtain ⟨rfl, rfl⟩ := Text.eq_of_append_mark hcomma hcomma' hbody
      rw [ih hrest]

/-- Blanks in front of a list do not matter. -/
theorem Listing.trimStart (h : Listing body slots) : Listing (Text.trimStart body) slots := by
  have hopens {text : Text} (hnot : ¬Opens text) : ¬Opens (Text.trimStart text) := by
    obtain ⟨margin, hmargin, htext⟩ := Text.exists_trimStart text
    exact fun hopens => hnot (htext ▸ hopens.append_left hmargin)
  cases h with
  | quoted hmargin hquote hinner hrest =>
    rw [Text.trimStart_visible hmargin hquote.isBlank]
    exact .quoted (List.forall_mem_nil _) hquote hinner hrest
  | last hcomma hnot =>
    rw [← bare_congr (Text.trim_trimStart body)]
    exact .last (fun hmem => hcomma (List.dropWhile_subset _ hmem)) (hopens hnot)
  | @comma tail rest slots hcomma hnot hrest =>
    have htrim : Text.trimStart (tail ++ ',' :: rest) = Text.trimStart tail ++ ',' :: rest := by
      rw [Text.trimStart, List.dropWhile_append]
      -- the blanks reach up to the comma if there is nothing else in front of it
      split
      · next hempty =>
        rw [Text.trimStart, List.isEmpty_iff.mp hempty]
        rfl
      · rfl
    have hnot := hopens hnot
    rw [htrim] at hnot ⊢
    rw [← bare_congr (Text.trim_trimStart tail)]
    exact .comma (fun hmem => hcomma (List.dropWhile_subset _ hmem)) hnot hrest

/-! ## The reader -/

theorem tokensUpTo_cons (bound : Nat) (c : Char) (rest : Text) :
    RuleCall.tokensUpTo (bound + 1) (c :: rest) =
      match RuleCall.quotedToken? (c :: rest) with
      | some (token, after) => token :: RuleCall.tokensUpTo bound after
      | none =>
        if c = ',' then RuleCall.tokensUpTo bound rest
        else (c :: rest).takeWhile (· ≠ ',') ::
          RuleCall.tokensUpTo bound ((c :: rest).dropWhile (· ≠ ',')) := by
  rfl

theorem tokensUpTo_quoted (hmargin : Blank margin) (hquote : IsQuote quote) (hinner : quote ∉ inner)
    (rest : Text) (bound : Nat) :
    RuleCall.tokensUpTo (bound + 1) (margin ++ quote :: (inner ++ quote :: rest)) =
      (quote :: inner ++ [quote]) :: RuleCall.tokensUpTo bound (trimStart rest) := by
  have htoken := quotedToken?_append hmargin hquote hinner rest
  obtain ⟨c, after, hbody⟩ :=
    List.exists_cons_of_ne_nil (show margin ++ quote :: (inner ++ quote :: rest) ≠ [] by simp)
  rw [hbody] at htoken ⊢
  rw [tokensUpTo_cons, htoken]

theorem tokensUpTo_comma (rest : Text) (bound : Nat) :
    RuleCall.tokensUpTo (bound + 1) (',' :: rest) = RuleCall.tokensUpTo bound rest := by
  have htoken : RuleCall.quotedToken? (',' :: rest) = none :=
    quotedToken?_of_not_opens (not_opens_comma (List.forall_mem_nil _) rest)
  rw [tokensUpTo_cons, htoken]
  exact if_pos rfl

theorem tokensUpTo_bare (hne : tail ≠ []) (hcomma : ',' ∉ tail) (hopens : ¬Opens (tail ++ rest))
    (hrest : ∀ c ∈ rest.head?, c = ',') (bound : Nat) :
    RuleCall.tokensUpTo (bound + 1) (tail ++ rest) = tail :: RuleCall.tokensUpTo bound rest := by
  have hrun : ∀ c ∈ tail, decide (c ≠ ',') = true := fun c hc =>
    decide_eq_true fun heq => hcomma (heq ▸ hc)
  have hstop : ∀ c ∈ rest.head?, decide (c ≠ ',') = false := fun c hc =>
    decide_eq_false (not_not.mpr (hrest c hc))
  have htake := Text.takeWhile_append_of_stop hrun hstop
  have hdrop := Text.dropWhile_append_of_stop hrun hstop
  have htoken := quotedToken?_of_not_opens hopens
  obtain ⟨c, after, rfl⟩ := List.exists_cons_of_ne_nil hne
  rw [List.cons_append] at htake hdrop htoken ⊢
  rw [tokensUpTo_cons, htoken]
  dsimp only
  rw [if_neg (fun heq : c = ',' => hcomma (heq ▸ List.mem_cons_self)), htake, hdrop]

theorem map_parse_cons (token : Text) (tokens : List Text) :
    ((token :: tokens).filter fun token => trim token ≠ []).map parse =
      (if trim token ≠ [] then [parse token] else []) ++
        (tokens.filter fun token => trim token ≠ []).map parse := by
  by_cases htrim : trim token = [] <;> simp [htrim]

/-- The reader goes through the slots. -/
theorem parse_tokensUpTo {bound : Nat} (h : Listing body slots) (hbound : body.length ≤ bound) :
    ((RuleCall.tokensUpTo bound body).filter fun token => trim token ≠ []).map parse =
      slots.flatten := by
  induction bound generalizing body slots with
  | zero =>
    obtain rfl : body = [] := List.length_eq_zero_iff.mp (by omega)
    rw [h.unique (.last (by simp) (not_opens_of_blank (List.forall_mem_nil _)))]
    rfl
  | succ bound ih =>
    cases h with
    | @quoted margin inner rest quote slot slots hmargin hquote hinner hrest =>
      obtain ⟨htrim, hparse⟩ := parse_quoted hquote inner
      have hlength : (trimStart rest).length ≤ bound := by
        have hle := (List.dropWhile_sublist isBlank (l := rest)).length_le
        simp at hbound
        exact hle.trans (by omega)
      rw [tokensUpTo_quoted hmargin hquote hinner, map_parse_cons, ih hrest.trimStart hlength,
        htrim, hparse, if_pos (by simp)]
      rfl
    | last hcomma hopens =>
      by_cases hne : body = []
      · rw [hne]
        rfl
      have htokens : RuleCall.tokensUpTo (bound + 1) (body ++ []) =
          body :: RuleCall.tokensUpTo bound [] :=
        tokensUpTo_bare hne hcomma (by rwa [List.append_nil]) (by simp) bound
      rw [List.append_nil] at htokens
      rw [htokens, map_parse_cons, parse_of_not_opens hopens]
      cases bound <;> rfl
    | @comma tail rest slots hcomma hopens hrest =>
      by_cases hne : tail = []
      · subst hne
        rw [List.nil_append, tokensUpTo_comma, ih hrest (by simpa using hbound)]
        rfl
      have htail : ¬Opens tail := fun h => hopens (h.append (',' :: rest))
      -- the reader stops in front of the comma, which starts an empty slot of what is left
      have hcommaFirst : Listing (',' :: rest) ([] :: slots) :=
        .comma List.not_mem_nil (not_opens_comma (List.forall_mem_nil _) rest) hrest
      have hlength : (',' :: rest).length ≤ bound := by
        have hpos := List.length_pos_of_ne_nil hne
        rw [List.length_append] at hbound
        omega
      rw [tokensUpTo_bare hne hcomma hopens (by simp), map_parse_cons, parse_of_not_opens htail,
        ih hcommaFirst hlength]
      rfl

theorem parseParams_of_listing (h : Listing body slots) :
    RuleCall.parseParams body = slots.flatten :=
  parse_tokensUpTo h le_rfl

theorem count_text_bare (hcomma : ',' ∉ text) : ((bare text).map (·.text.count ',')).sum = 0 := by
  have htrim : (trim text).count ',' = 0 :=
    List.count_eq_zero.mpr fun hmem => hcomma (Text.mem_of_mem_trim hmem)
  rw [bare]
  split
  · rfl
  · split <;> simpa [RuleParam.text] using htrim

/-- Commas separate the slots, apart from those that are in literals. -/
theorem Listing.count_comma (h : Listing body slots) :
    body.count ',' + 1 = slots.length + (slots.flatten.map (·.text.count ',')).sum := by
  induction h with
  | quoted hmargin hquote _ _ ih =>
    have hmargin := List.count_eq_zero.mpr (hmargin.not_mem (c := ',') (by decide))
    simp only [List.length_cons, List.flatten_cons, List.cons_append, List.map_cons, List.sum_cons,
      List.count_append, List.count_cons_of_ne hquote.ne_comma, hmargin, RuleParam.text] at ih ⊢
    omega
  | last hcomma _ =>
    simp [List.count_eq_zero.mpr hcomma, count_text_bare hcomma]
  | comma hcomma _ _ ih =>
    simp only [List.length_cons, List.flatten_cons, List.map_append, List.sum_append,
      List.count_append, List.count_cons_self, List.count_eq_zero.mpr hcomma,
      count_text_bare hcomma] at ih ⊢
    omega

end RuleParam

end EpcTag
