-- SUMMARY: Rule functions as text: written calls are read back, and what else is read as a call.
import EpcTag.Proofs.Numeral
import EpcTag.Proofs.ParameterLists
import EpcTag.Proofs.SoundSchemes

/-!
# Rule text

A call is a word and a parameter list in parentheses. A call that is written with one
parameter between two commas is read back as it was meant, whatever the case of its name,
the blanks around its parameters and the texts in its quotes. The reader accepts more than
such calls: it takes the parameters from the slots of the list in a row, so an empty slot or
a missing comma passes as long as the number of parameters is one that the function takes.
-/

namespace EpcTag

open Text (Blank Word isBlank isWord)

/-! ## Written parameters -/

namespace RuleParam

variable {text body part ending written : Text} {param : RuleParam}
  {params slot : List RuleParam} {slots : List (List RuleParam)} {parts : List Text}

/-- How a parameter is written: a literal in quotes of a kind that it does not hold, an
    integer also without them, and a field by its name. -/
inductive Written : RuleParam → Text → Prop
  | quoted {quote : Char} {value : Text} (hquote : IsQuote quote) (hvalue : quote ∉ value) :
      Written (.literal value) (quote :: (value ++ [quote]))
  | integer {value : Text} (hinteger : isInteger value = true) : Written (.literal value) value
  | name {name : Text} (hne : name ≠ []) (hcomma : ',' ∉ name) (htrim : Text.trim name = name)
      (hquote : ∀ c ∈ name.head?, ¬IsQuote c) (hinteger : isInteger name = false) :
      Written (.field name) name

/-- A written parameter with blanks around it. -/
def Spaced (param : RuleParam) (text : Text) : Prop :=
  ∃ before written after, Blank before ∧ Blank after ∧ param.Written written ∧
    text = before ++ (written ++ after)

/-- Written parameters with commas between them. -/
def Listed (params : List RuleParam) (body : Text) : Prop :=
  ∃ parts, List.Forall₂ Spaced params parts ∧ body = Text.joinWith [','] parts

/-- The name of a field does not open a literal that nothing closes. -/
def Closed : RuleParam → Prop
  | .literal _ => True
  | .field name => ∀ c ∈ name.head?, ¬IsQuote c

/-- What follows a slot: the end of the list, or a comma and the other slots. -/
def Follows (ending : Text) (slots : List (List RuleParam)) : Prop :=
  (ending = [] ∧ slots = []) ∨ ∃ rest, ending = ',' :: rest ∧ Listing rest slots

theorem listing_append {tail : Text} (hcomma : ',' ∉ tail) (hopens : ¬Opens (tail ++ ending))
    (hending : Follows ending slots) : Listing (tail ++ ending) (bare tail :: slots) := by
  rcases hending with ⟨rfl, rfl⟩ | ⟨rest, rfl, hrest⟩
  · rw [List.append_nil] at hopens ⊢
    exact .last hcomma hopens
  · exact .comma hcomma hopens hrest

/-- The characters of an integer are visible, and no marks. -/
theorem mem_of_isInteger (h : isInteger text = true) {c : Char} (hc : c ∈ text) :
    isBlank c = false ∧ c ≠ ',' ∧ ¬IsQuote c := by
  have hdecimal {digits : Text} (hdigits : Numeral.isDecimal digits = true) :
      ∀ d ∈ digits, isBlank d = false ∧ d ≠ ',' ∧ ¬IsQuote d := by
    intro d hd
    have hcode := ((Numeral.isDecimal_iff digits).mp hdigits).2 d hd
    refine ⟨Text.isBlank_of_digit hcode, ?_, ?_⟩
    · rintro rfl
      exact absurd hcode (by decide)
    · rintro (rfl | rfl) <;> exact absurd hcode (by decide)
  rw [isInteger.eq_def] at h
  split at h
  · next digits =>
    rcases List.mem_cons.mp hc with rfl | hc
    · exact ⟨by decide, by decide, by simp [IsQuote]⟩
    · exact hdecimal h c hc
  · exact hdecimal h c hc

/-- A parameter is written in quotes, or it is what its text stands for without them. -/
theorem Written.cases (h : Written param written) :
    (∃ quote value, IsQuote quote ∧ quote ∉ value ∧ param = .literal value ∧
      written = quote :: (value ++ [quote])) ∨
    (',' ∉ written ∧ bare written = [param] ∧
      ∃ c rest, written = c :: rest ∧ isBlank c = false ∧ ¬IsQuote c) := by
  cases h with
  | quoted hquote hvalue => exact .inl ⟨_, _, hquote, hvalue, rfl, rfl⟩
  | @integer value hinteger =>
    have htrim : Text.trim written = written :=
      Text.trimBy_eq_self fun c hc => (mem_of_isInteger hinteger hc).1
    cases written with
    | nil => cases hinteger
    | cons c rest =>
      obtain ⟨hblank, -, hquote⟩ := mem_of_isInteger hinteger List.mem_cons_self
      refine .inr ⟨fun hmem => (mem_of_isInteger hinteger hmem).2.1 rfl, ?_, c, rest, rfl, hblank,
        hquote⟩
      rw [bare, htrim, if_neg (List.cons_ne_nil c rest), if_pos hinteger]
  | name hne hcomma htrim hquote hinteger =>
    obtain ⟨c, rest, rfl⟩ := List.exists_cons_of_ne_nil hne
    have hhead : c ∈ (Text.trim (c :: rest)).head? := by
      rw [htrim]
      rfl
    refine .inr ⟨hcomma, ?_, c, rest, rfl, Text.isBlank_of_mem_head?_trim hhead, hquote c rfl⟩
    rw [bare, htrim, if_neg hne, if_neg (by simp [hinteger])]

/-- A written parameter fills a slot. -/
theorem Spaced.listing (h : Spaced param part) (hending : Follows ending slots) :
    Listing (part ++ ending) ([param] :: slots) := by
  obtain ⟨before, written, after, hbefore, hafter, hwritten, rfl⟩ := h
  rcases hwritten.cases with ⟨quote, value, hquote, hvalue, rfl, rfl⟩ |
    ⟨hcomma, hbare, c, rest, hhead, hblank, hquote⟩
  · -- no quotation opens behind a quoted parameter
    have hopens : ¬Opens (after ++ ending) := by
      rcases hending with ⟨rfl, -⟩ | ⟨rest, rfl, -⟩
      · rw [List.append_nil]
        exact not_opens_of_blank hafter
      · exact not_opens_comma hafter rest
    have hrest := listing_append (hafter.not_mem (by decide)) hopens hending
    rw [bare_of_blank hafter] at hrest
    simpa using Listing.quoted hbefore hquote hvalue hrest
  · have hslot : bare (before ++ (written ++ after)) = [param] :=
      (bare_congr (Text.trim_append hbefore hafter written)).trans hbare
    have hcomma : ',' ∉ before ++ (written ++ after) := by
      simp only [List.mem_append, not_or]
      exact ⟨hbefore.not_mem (by decide), hcomma, hafter.not_mem (by decide)⟩
    have hopens : ¬Opens (before ++ (written ++ after) ++ ending) := by
      rw [hhead, List.append_assoc, List.append_assoc, List.cons_append]
      exact not_opens_of_visible hbefore hblank hquote _
    rw [← hslot]
    exact listing_append hcomma hopens hending

/-- A list with one written parameter between two commas has it in a slot. -/
theorem Listed.listing (h : Listed params body) (hne : params ≠ []) :
    Listing body (params.map ([·])) := by
  obtain ⟨parts, hparts, rfl⟩ := h
  induction hparts with
  | nil => exact absurd rfl hne
  | @cons param part params parts hpart hrest ih =>
    cases hrest with
    | nil => simpa [Text.joinWith] using hpart.listing (.inl ⟨rfl, rfl⟩)
    | cons hnext hrest =>
      simpa [Text.joinWith] using hpart.listing (.inr ⟨_, rfl, ih (List.cons_ne_nil _ _)⟩)

theorem Listed.closed (h : Listed params body) : ∀ param ∈ params, param.Closed := by
  obtain ⟨parts, hparts, rfl⟩ := h
  intro param hparam
  obtain ⟨part, -, before, written, after, -, -, hwritten, -⟩ := exists_right_of_mem hparts hparam
  cases hwritten with
  | quoted => trivial
  | integer => trivial
  | name _ _ _ hquote _ => exact hquote

theorem spaced_of_bare {tail : Text} (hcomma : ',' ∉ tail) (h : bare tail = [param])
    (hclosed : param.Closed) : Spaced param tail := by
  obtain ⟨before, after, hbefore, hafter, htail⟩ := Text.exists_trim tail
  refine ⟨before, Text.trim tail, after, hbefore, hafter, ?_, htail⟩
  rw [bare] at h
  split at h
  · cases h
  · next hne =>
    split at h
    · next hinteger =>
      cases h
      exact .integer hinteger
    · next hinteger =>
      cases h
      exact .name hne (fun hmem => hcomma (Text.mem_of_mem_trim hmem)) (Text.trim_trim tail)
        hclosed (by simpa using hinteger)

/-- From an empty slot only blanks are read. -/
theorem Listing.of_nil (h : Listing body ([] :: slots)) :
    ∃ margin ending, Blank margin ∧ body = margin ++ ending ∧ Follows ending slots := by
  have hblank {tail : Text} (hbare : bare tail = []) : Blank tail := by
    refine Text.trim_eq_nil_iff.mp (by_contra fun hne => ?_)
    rw [bare, if_neg hne] at hbare
    split at hbare <;> cases hbare
  generalize hslots : [] :: slots = all at h
  cases h with
  | quoted => cases hslots
  | last _ _ =>
    obtain ⟨hbare, rfl⟩ := List.cons.inj hslots
    exact ⟨body, [], hblank hbare.symm, (List.append_nil body).symm, .inl ⟨rfl, rfl⟩⟩
  | comma _ _ hrest =>
    obtain ⟨hbare, rfl⟩ := List.cons.inj hslots
    exact ⟨_, _, hblank hbare.symm, rfl, .inr ⟨_, rfl, hrest⟩⟩

/-- A slot with one parameter holds it as it is written. -/
theorem Listing.of_single (h : Listing body ([param] :: slots)) (hclosed : param.Closed) :
    ∃ part ending, Spaced param part ∧ body = part ++ ending ∧ Follows ending slots := by
  generalize hslots : [param] :: slots = all at h
  cases h with
  | @quoted margin inner rest quote slot others hmargin hquote hinner hrest =>
    obtain ⟨hslot, rfl⟩ := List.cons.inj hslots
    obtain ⟨rfl, rfl⟩ := List.cons.inj hslot
    obtain ⟨after, ending, hafter, rfl, hending⟩ := hrest.of_nil
    exact ⟨margin ++ (quote :: (inner ++ [quote]) ++ after), ending,
      ⟨margin, _, after, hmargin, hafter, .quoted hquote hinner, rfl⟩, by simp, hending⟩
  | last hcomma _ =>
    obtain ⟨hbare, rfl⟩ := List.cons.inj hslots
    exact ⟨body, [], spaced_of_bare hcomma hbare.symm hclosed, (List.append_nil body).symm,
      .inl ⟨rfl, rfl⟩⟩
  | comma hcomma _ hrest =>
    obtain ⟨hbare, rfl⟩ := List.cons.inj hslots
    exact ⟨_, _, spaced_of_bare hcomma hbare.symm hclosed, rfl, .inr ⟨_, rfl, hrest⟩⟩

theorem Listing.listed (h : Listing body slots)
    (hsingle : ∀ slot ∈ slots, ∃ param, slot = [param] ∧ param.Closed) :
    Listed slots.flatten body := by
  induction slots generalizing body with
  | nil =>
    obtain ⟨_, _, hslots⟩ := h.exists_cons
    cases hslots
  | cons slot slots ih =>
    obtain ⟨param, rfl, hclosed⟩ := hsingle slot List.mem_cons_self
    obtain ⟨part, ending, hpart, rfl, hending⟩ := h.of_single hclosed
    rcases hending with ⟨rfl, rfl⟩ | ⟨rest, rfl, hrest⟩
    · exact ⟨[part], .cons hpart .nil, by simp [Text.joinWith]⟩
    · obtain ⟨parts, hparts, rfl⟩ := ih hrest fun slot hslot =>
        hsingle slot (List.mem_cons_of_mem _ hslot)
      obtain ⟨slot, others, rfl⟩ := hrest.exists_cons
      obtain ⟨next, rfl, -⟩ := hsingle slot (by simp)
      refine ⟨part :: parts, .cons hpart hparts, ?_⟩
      cases hparts
      simp [Text.joinWith]

/-- A list is written as it is meant exactly if every slot holds one parameter. -/
theorem Listing.listed_iff (h : Listing body slots) (hne : slots.flatten ≠ []) :
    Listed slots.flatten body ↔ ∀ slot ∈ slots, ∃ param, slot = [param] ∧ param.Closed := by
  refine ⟨fun hlisted => ?_, h.listed⟩
  have hslots := h.unique (hlisted.listing hne)
  intro slot hslot
  rw [hslots] at hslot
  obtain ⟨param, hparam, rfl⟩ := List.mem_map.mp hslot
  exact ⟨param, rfl, hlisted.closed param hparam⟩

end RuleParam

/-! ## Names -/

namespace Text

theorem upperChar_of_isAlphanum {c : Char} (h : c.isAlphanum = true) :
    upperChar c = [c.toUpper] := by
  refine if_pos ?_
  delta Char.isAlphanum Char.isAlpha Char.isUpper Char.isLower Char.isDigit at h
  simp only [Bool.or_eq_true, Bool.and_eq_true, decide_eq_true_eq, UInt32.le_iff_toNat_le,
    ge_iff_le] at h
  have hz : 'z'.val.toNat = 122 := rfl
  have hZ : 'Z'.val.toNat = 90 := rfl
  have h9 : '9'.val.toNat = 57 := rfl
  change c.val.toNat < 128
  omega

theorem isAlphanum_of_toUpper {c : Char} (h : c.toUpper.isAlphanum = true) :
    c.isAlphanum = true := by
  delta Char.toUpper at h
  split at h
  · next hlower =>
    have hcase : c.isLower = true :=
      Bool.and_eq_true_iff.mpr ⟨decide_eq_true hlower.1, decide_eq_true hlower.2⟩
    exact Bool.or_eq_true_iff.mpr (.inl (Bool.or_eq_true_iff.mpr (.inr hcase)))
  · exact h

end Text

namespace RuleFunction

variable {function : RuleFunction} {word : Text}

theorem name_of_ofName? (h : ofName? word = some function) : function.name = word := by
  simpa using List.find?_some h

theorem name_ne_nil (function : RuleFunction) : function.name ≠ [] := by
  cases function with
  | arithmetic op => cases op <;> decide
  | _ => decide

/-- Names are made of the letters and digits of ASCII. -/
theorem isAlphanum_of_mem_name {c : Char} (h : c ∈ function.name) : c.isAlphanum = true := by
  have hall : function.name.all Char.isAlphanum = true := by
    cases function with
    | arithmetic op => cases op <;> rfl
    | _ => rfl
  exact List.all_eq_true.mp hall c h

/-- A name in any case is a word, and its capitals are the name. -/
theorem upper_of_map_toUpper (h : word.map Char.toUpper = function.name) :
    Word word ∧ Text.upper word = function.name := by
  have hchar (c : Char) (hc : c ∈ word) : c.isAlphanum = true :=
    Text.isAlphanum_of_toUpper (isAlphanum_of_mem_name (h ▸ List.mem_map_of_mem hc))
  refine ⟨⟨?_, fun c hc => Text.isWord_of_isAlphanum (hchar c hc)⟩, ?_⟩
  · rintro rfl
    exact name_ne_nil function h.symm
  · rw [Text.upper, List.flatMap_congr fun c hc => Text.upperChar_of_isAlphanum (hchar c hc), ← h,
      List.map_eq_flatMap]

end RuleFunction

/-! ## Calls -/

namespace RuleCall

variable {text word body : Text} {call : RuleCall} {function : RuleFunction}
  {params : List RuleParam} {slots : List (List RuleParam)}

/-- A text is a word and a body in parentheses, with blanks around the word and behind the
    closing parenthesis. -/
def Encloses (text word body : Text) : Prop :=
  ∃ before gap after, Blank before ∧ Blank gap ∧ Blank after ∧
    text = before ++ (word ++ (gap ++ '(' :: (body ++ ')' :: after)))

theorem encloses_of_splitCall? (h : splitCall? text = some (word, body)) :
    Word word ∧ Encloses text word body := by
  unfold splitCall? at h
  dsimp only at h
  split at h
  · next rest hname hrest =>
    split at h
    · next reversed hend =>
      cases h
      obtain ⟨before, hbefore, htext⟩ := Text.exists_trimStart text
      obtain ⟨gap, hgap, hstart⟩ := Text.exists_trimStart ((Text.trimStart text).dropWhile isWord)
      obtain ⟨after, hafter, hlast⟩ := Text.exists_dropWhileEnd isBlank rest
      have hbody : Text.dropWhileEnd isBlank rest = reversed.reverse ++ [')'] := by
        rw [← List.reverse_reverse (Text.dropWhileEnd isBlank rest), hend, List.reverse_cons]
      rw [hrest, hlast, hbody] at hstart
      have hword : Word ((Text.trimStart text).takeWhile isWord) :=
        ⟨hname ▸ List.cons_ne_nil _ _, fun c hc => List.mem_takeWhile_imp hc⟩
      refine ⟨hword, before, gap, after, hbefore, hgap, hafter, ?_⟩
      calc text = before ++ ((Text.trimStart text).takeWhile isWord ++
            (Text.trimStart text).dropWhile isWord) := by
            rw [List.takeWhile_append_dropWhile]
            exact htext
        _ = _ := by
            rw [hstart]
            simp
    · cases h
  · cases h

theorem splitCall?_of_encloses (hword : Word word) (h : Encloses text word body) :
    splitCall? text = some (word, body) := by
  obtain ⟨before, gap, after, hbefore, hgap, hafter, rfl⟩ := h
  obtain ⟨c, others, rfl⟩ := List.exists_cons_of_ne_nil hword.ne_nil
  have hstart : Text.trimStart (before ++ (c :: others ++ (gap ++ '(' :: (body ++ ')' :: after)))) =
      c :: others ++ (gap ++ '(' :: (body ++ ')' :: after)) :=
    Text.trimStart_visible hbefore (hword.isBlank List.mem_cons_self) _
  -- the word ends at the gap, or at the bracket if there is none
  have hstop : ∀ d ∈ (gap ++ '(' :: (body ++ ')' :: after)).head?, isWord d = false := by
    rintro d hd
    cases gap with
    | nil =>
      cases hd
      decide
    | cons blank gap =>
      cases hd
      exact Text.isWord_of_isBlank (hgap _ List.mem_cons_self)
  have hopen : Text.trimStart (gap ++ '(' :: (body ++ ')' :: after)) =
      '(' :: (body ++ ')' :: after) := Text.trimStart_visible hgap (by decide) _
  have hend : (Text.dropWhileEnd isBlank (body ++ ')' :: after)).reverse = ')' :: body.reverse := by
    rw [Text.dropWhileEnd_append_of_stop hafter (by decide)]
    simp
  rw [splitCall?, hstart, Text.takeWhile_append_of_stop hword.isWord hstop,
    Text.dropWhile_append_of_stop hword.isWord hstop, hopen]
  simp only [hend, List.reverse_reverse]

/-- The call is spelled by the text: a word whose capitals are the name of its function, and
    in parentheses a list from whose slots its parameters are read. -/
structure Spelled (call : RuleCall) (text body : Text) (slots : List (List RuleParam)) : Prop where
  name : ∃ word, Word word ∧ Encloses text word body ∧ Text.upper word = call.function.name
  listing : RuleParam.Listing body slots
  params : slots.flatten = call.params

theorem parse_of_spelled (h : call.Spelled text body slots) : parse text = .ok call := by
  obtain ⟨word, hword, hencloses, hupper⟩ := h.name
  rw [parse, splitCall?_of_encloses hword hencloses]
  dsimp only
  rw [hupper, RuleFunction.ofName?_name, RuleParam.parseParams_of_listing h.listing, h.params]
  dsimp only
  rw [ofParams?_params]

theorem exists_spelled_of_parse (h : parse text = .ok call) :
    ∃ body slots, call.Spelled text body slots := by
  obtain ⟨word, body, hsplit, hname, hparams⟩ := exists_written_of_parse h
  obtain ⟨hword, hencloses⟩ := encloses_of_splitCall? hsplit
  obtain ⟨slots, hlisting⟩ := RuleParam.exists_listing body
  exact ⟨body, slots, ⟨word, hword, hencloses, (RuleFunction.name_of_ofName? hname).symm⟩,
    hlisting, (RuleParam.parseParams_of_listing hlisting).symm.trans hparams⟩

theorem params_ne_nil (call : RuleCall) : call.params ≠ [] := by
  cases call <;> simp [params]

/-- What cannot be read is reported as a defect of the definition. -/
theorem parse_outcome (text : Text) :
    (∃ call, parse text = .ok call) ∨ ∃ defect, parse text = .error (.definition defect) := by
  rw [parse.eq_def]
  split
  · exact .inr ⟨_, rfl⟩
  · dsimp only
    split
    · exact .inr ⟨_, rfl⟩
    · split
      · exact .inr ⟨_, rfl⟩
      · exact .inl ⟨_, rfl⟩

end RuleCall

/-! ## Written calls -/

/-- How a call is written: the name of its function in any case and in parentheses its
    parameters as they are written, with blanks anywhere between these parts. -/
def RuleFunction.Written (function : RuleFunction) (params : List RuleParam) (text : Text) : Prop :=
  ∃ word body, word.map Char.toUpper = function.name ∧ RuleParam.Listed params body ∧
    RuleCall.Encloses text word body

namespace RuleCall

variable {text word body : Text} {call : RuleCall} {function : RuleFunction}
  {params : List RuleParam} {slots : List (List RuleParam)}

theorem exists_of_takes (h : function.Takes params.length) :
    ∃ call : RuleCall, call.function = function ∧ call.params = params := by
  cases function with
  | tableLookup =>
    obtain ⟨value, others, rfl⟩ := List.exists_of_length_succ params h
    obtain ⟨table, input, output, rfl⟩ := List.length_eq_three.mp (Nat.succ.inj h)
    exact ⟨.tableLookup value table input output, rfl, rfl⟩
  | length =>
    obtain ⟨value, rfl⟩ := List.length_eq_one_iff.mp h
    exact ⟨.length value, rfl, rfl⟩
  | checkDigit =>
    obtain ⟨value, rfl⟩ := List.length_eq_one_iff.mp h
    exact ⟨.checkDigit value, rfl, rfl⟩
  | substring =>
    rcases h with h | h
    · obtain ⟨value, start, rfl⟩ := List.length_eq_two.mp h
      exact ⟨.substring value start none, rfl, rfl⟩
    · obtain ⟨value, start, count, rfl⟩ := List.length_eq_three.mp h
      exact ⟨.substring value start (some count), rfl, rfl⟩
  | concatenate =>
    obtain ⟨first, rest, rfl⟩ := List.exists_cons_of_length_pos h
    exact ⟨.concatenate first rest, rfl, rfl⟩
  | arithmetic op =>
    obtain ⟨left, right, rfl⟩ := List.length_eq_two.mp h
    exact ⟨.arithmetic op left right, rfl, rfl⟩

/-- A call that is written with parameters as many as its function takes is read as it is
    meant. -/
theorem parse_written (htakes : function.Takes params.length) (h : function.Written params text) :
    ∃ call, parse text = .ok call ∧ call.function = function ∧ call.params = params := by
  obtain ⟨call, rfl, rfl⟩ := exists_of_takes htakes
  obtain ⟨word, body, hname, hlisted, hencloses⟩ := h
  obtain ⟨hword, hupper⟩ := RuleFunction.upper_of_map_toUpper hname
  have hspelled : call.Spelled text body (call.params.map ([·])) :=
    ⟨⟨word, hword, hencloses, hupper⟩, hlisted.listing call.params_ne_nil,
      List.flatMap_singleton' call.params⟩
  exact ⟨call, parse_of_spelled hspelled, rfl, rfl⟩

/-- Marks in quotes, an apostrophe in a name, a sign, and blanks of several kinds. -/
theorem parse_written_marks :
    ∃ call, parse " sUbStR (\t'a,\"b)' , -1,it's (2)\n)" = .ok call ∧
      call.function = .substring ∧
      call.params = [.literal "a,\"b)", .literal "-1", .field "it's (2)"] := by
  have hquoted : RuleParam.Written (.literal "a,\"b)") ('\'' :: ("a,\"b)".toList ++ ['\''])) :=
    .quoted (.inl rfl) (by decide)
  have hfirst : RuleParam.Spaced (.literal "a,\"b)") "\t'a,\"b)' " :=
    ⟨"\t", "'a,\"b)'", " ", by decide, by decide, hquoted, rfl⟩
  have hsecond : RuleParam.Spaced (.literal "-1") " -1" :=
    ⟨" ", "-1", "", by decide, by decide, .integer (by decide), rfl⟩
  have hthird : RuleParam.Spaced (.field "it's (2)") "it's (2)\n" :=
    ⟨"", "it's (2)", "\n", by decide, by decide,
      .name (by decide) (by decide) (by decide) (by simp [RuleParam.IsQuote]) (by decide), rfl⟩
  exact parse_written (.inr rfl)
    ⟨"sUbStR", "\t'a,\"b)' , -1,it's (2)\n", by decide,
      ⟨_, .cons hfirst (.cons hsecond (.cons hthird .nil)), by decide⟩,
      " ", " ", "", by decide, by decide, by decide, by decide⟩

/-- A text is read as a call exactly if it spells it. Commas outside the literals separate the
    slots of its list, and it is the call as it is written if each slot has one parameter; the
    reader does not ask for that. -/
theorem parse_eq_ok_iff (text : Text) :
    (∀ call, parse text = .ok call ↔ ∃ body slots, Spelled call text body slots) ∧
      (∀ call body slots, Spelled call text body slots →
        body.count ',' + 1 = slots.length + (call.params.map (·.text.count ',')).sum ∧
          (RuleParam.Listed call.params body ↔
            ∀ slot ∈ slots, ∃ param, slot = [param] ∧ param.Closed)) ∧
      ((∃ call, parse text = .ok call) ∨ ∃ defect, parse text = .error (.definition defect)) := by
  refine ⟨fun call => ⟨exists_spelled_of_parse, ?_⟩, ?_, parse_outcome text⟩
  · rintro ⟨body, slots, hspelled⟩
    exact parse_of_spelled hspelled
  · rintro call body slots hspelled
    rw [← hspelled.params]
    refine ⟨hspelled.listing.count_comma, hspelled.listing.listed_iff ?_⟩
    rw [hspelled.params]
    exact call.params_ne_nil

/-- An empty parameter is passed over, and a comma may be missing. -/
theorem not_parse_listed :
    (∃ call, parse "SUBSTR(gtin,,1)" = .ok call ∧
      splitCall? "SUBSTR(gtin,,1)" = some ("SUBSTR".toList, "gtin,,1".toList) ∧
      call.params.length = 2 ∧ "gtin,,1".toList.count ',' = 2 ∧
      ¬RuleParam.Listed call.params "gtin,,1") ∧
    ∃ call, parse "CONCAT('a' 'b')" = .ok call ∧
      splitCall? "CONCAT('a' 'b')" = some ("CONCAT".toList, "'a' 'b'".toList) ∧
      call.params.length = 2 ∧ "'a' 'b'".toList.count ',' = 0 ∧
      ¬RuleParam.Listed call.params "'a' 'b'" := by
  refine ⟨⟨.substring (.field "gtin") (.literal "1") none, rfl, by decide, rfl, by decide, ?_⟩,
    .concatenate (.literal "a") [.literal "b"], rfl, by decide, rfl, by decide, ?_⟩
  · intro hlisted
    have hcommas := (hlisted.listing (List.cons_ne_nil _ _)).count_comma
    exact absurd hcommas (by decide)
  · intro hlisted
    have hcommas := (hlisted.listing (List.cons_ne_nil _ _)).count_comma
    exact absurd hcommas (by decide)

end RuleCall

end EpcTag
