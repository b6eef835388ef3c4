-- SUMMARY: The keys of GS1 element strings: how rules divide them and join them again.
import EpcTag.Builtin.Gs1
import EpcTag.Proofs.Rules

/-!
# GS1 keys

The key of an element string is the company prefix and the reference in one; the
extract rules divide it at the length of the company prefix, and the format rules
join it again and append the check digit. Three arrangements occur. The first
digit of a key leads the reference, or it belongs to the company prefix, and in
the second case the check digit is the last digit of the key or a field of its
own.
-/

namespace EpcTag

/-! ## Keys -/

/-- The name of the company prefix. -/
def companyName : Text := "companyprefix"

/-- The name of the check digit. -/
def checkName : Text := "checkdigit"

/-- How the key of an element string is divided. -/
inductive KeyRule where
  /-- The first digit leads the reference; `count` digits follow it before the check
      digit. -/
  | leading (key indicator body remainder reference : Text) (count : Nat)
  /-- The company prefix comes first and the check digit last in one field. -/
  | joined (key body reference : Text) (count : Nat)
  /-- The company prefix comes first, and the check digit is another field. -/
  | separate (body reference : Text) (count : Nat)
  deriving DecidableEq, Repr

namespace KeyRule

open Builtin (companyPrefixLengthKey)

/-- The name of the reference. -/
def referenceName : KeyRule → Text
  | .leading _ _ _ _ reference _ => reference
  | .joined _ _ reference _ => reference
  | .separate _ reference _ => reference

/-- The number of digits before the check digit. -/
def bodyLength : KeyRule → Nat
  | .leading _ _ _ _ _ count => count + 1
  | .joined _ _ _ count => count
  | .separate _ _ count => count

/-- The number of digits before the company prefix. -/
def ahead : KeyRule → Nat
  | .leading _ _ _ _ _ _ => 1
  | .joined _ _ _ _ | .separate _ _ _ => 0

/-- The fields of the key in an element string. -/
def fieldNames : KeyRule → List Text
  | .leading key _ _ _ _ _ => [key]
  | .joined key _ _ _ => [key]
  | .separate body _ _ => [body, checkName]

/-- The texts of these fields for the digits of a key and its check digit. -/
def fieldTexts (rule : KeyRule) (body check : Text) : List Text :=
  match rule with
  | .leading _ _ _ _ _ _ | .joined _ _ _ _ => [body ++ check]
  | .separate _ _ _ => [body, check]

/-- The company prefix of `digits` digits in a key. -/
def company (rule : KeyRule) (digits : Nat) (body : Text) : Text :=
  match rule with
  | .leading _ _ _ _ _ _ => (body.drop 1).take digits
  | .joined _ _ _ _ | .separate _ _ _ => body.take digits

/-- The reference behind a company prefix of `digits` digits in a key. -/
def reference (rule : KeyRule) (digits : Nat) (body : Text) : Text :=
  match rule with
  | .leading _ _ _ _ _ _ => body.take 1 ++ (body.drop 1).drop digits
  | .joined _ _ _ _ | .separate _ _ _ => body.drop digits

/-- The key of a company prefix and a reference. -/
def join (rule : KeyRule) (company reference : Text) : Text :=
  match rule with
  | .leading _ _ _ _ _ _ => reference.take 1 ++ company ++ reference.drop 1
  | .joined _ _ _ _ | .separate _ _ _ => company ++ reference

/-- The assignment of a part of a field, from a place on or up to the length of the
    company prefix. -/
def cut (name value start : Text) (first : RuleParam) : Assignment where
  name
  function := Text.join ["SUBSTR(", value, ",", start, ")"]
  call := .substring (.field value) first none

/-- The assignment of a part of a field with a length. -/
def cutAt (name value : Text) (first : Nat) (length : Text) (count : RuleParam) : Assignment where
  name
  function := Text.join ["SUBSTR(", value, ",", Text.ofNat first, ",", length, ")"]
  call := .substring (.field value) (.literal (Text.ofNat first)) (some count)

/-- The assignment of fields that are joined. -/
def concat (name first : Text) (rest : List Text) : Assignment where
  name
  function := Text.join ["CONCAT(", Text.joinWith [','] (first :: rest), ")"]
  call := .concatenate (.field first) (rest.map .field)

/-- The assignment of the check digit of a field. -/
def check (body : Text) : Assignment where
  name := checkName
  function := Text.join ["GS1CHECKSUM(", body, ")"]
  call := .checkDigit (.field body)

/-- The assignments that divide a key. -/
def extract : KeyRule → List Assignment
  | .leading key indicator body remainder reference count =>
    [cutAt indicator key 0 (Text.ofNat 1) (.literal (Text.ofNat 1)),
     cutAt body key 1 (Text.ofNat count) (.literal (Text.ofNat count)),
     cutAt companyName body 0 companyPrefixLengthKey (.field companyPrefixLengthKey),
     cut remainder body companyPrefixLengthKey (.field companyPrefixLengthKey),
     concat reference indicator [remainder]]
  | .joined key body reference count =>
    [cutAt body key 0 (Text.ofNat count) (.literal (Text.ofNat count)),
     cutAt companyName body 0 companyPrefixLengthKey (.field companyPrefixLengthKey),
     cut reference body companyPrefixLengthKey (.field companyPrefixLengthKey)]
  | .separate body reference _ =>
    [cutAt companyName body 0 companyPrefixLengthKey (.field companyPrefixLengthKey),
     cut reference body companyPrefixLengthKey (.field companyPrefixLengthKey)]

/-- The assignments that join a key. -/
def format : KeyRule → List Assignment
  | .leading key indicator body remainder reference _ =>
    [cutAt indicator reference 0 (Text.ofNat 1) (.literal (Text.ofNat 1)),
     cut remainder reference (Text.ofNat 1) (.literal (Text.ofNat 1)),
     concat body indicator [companyName, remainder],
     check body,
     concat key body [checkName]]
  | .joined key body reference _ =>
    [concat body companyName [reference], check body, concat key body [checkName]]
  | .separate body reference _ => [concat body companyName [reference], check body]

/-- All names that the assignments of a key use. -/
def names : KeyRule → List Text
  | .leading key indicator body remainder reference _ =>
    [key, indicator, body, remainder, reference, companyName, checkName, companyPrefixLengthKey]
  | .joined key body reference _ =>
    [key, body, reference, companyName, checkName, companyPrefixLengthKey]
  | .separate body reference _ =>
    [body, reference, companyName, checkName, companyPrefixLengthKey]

variable {rule : KeyRule} {lookup : TableLookup} {context : Context} {body digit : Text}
  {digits : Nat}

section
variable {name value : Text} {text : Text}

theorem assign_cut {start : Text} {first : RuleParam} {place : Nat}
    (hvalue : context.field? value = some (.text text))
    (hfirst : first.integer context = .ok (place : Int)) (steps : List Assignment) :
    Rules.assign lookup context (cut name value start first :: steps) =
      Rules.assign lookup (context.insert (.text name) (.text (text.drop place))) steps :=
  Rules.assign_cons_of_eval
    (RuleCall.eval_substring_from (RuleParam.value_field hvalue) hfirst) steps

theorem assign_cutAt {first count : Nat} {length : Text} {param : RuleParam}
    (hvalue : context.field? value = some (.text text))
    (hcount : param.integer context = .ok (count : Int)) (steps : List Assignment) :
    Rules.assign lookup context (cutAt name value first length param :: steps) =
      Rules.assign lookup (context.insert (.text name) (.text ((text.drop first).take count)))
        steps :=
  Rules.assign_cons_of_eval (RuleCall.eval_substring (RuleParam.value_field hvalue)
    (RuleParam.integer_literal context first) hcount) steps

theorem assign_concat {first : Text} {rest texts : List Text}
    (hholds : context.Holds (first :: rest) texts) (steps : List Assignment) :
    Rules.assign lookup context (concat name first rest :: steps) =
      Rules.assign lookup (context.insert (.text name) (.text (Text.join texts))) steps :=
  Rules.assign_cons_of_eval (RuleCall.eval_concatenate hholds) steps

theorem assign_check (hvalue : context.field? value = some (.text text))
    (hdigit : CheckDigit.compute text = .ok digit) (steps : List Assignment) :
    Rules.assign lookup context (check value :: steps) =
      Rules.assign lookup (context.insert (.text checkName) (.text digit)) steps := by
  have heval : (check value).call.eval lookup context = .ok (.text digit) := by
    rw [check, RuleCall.eval_checkDigit (RuleParam.value_field hvalue), hdigit]
    rfl
  exact Rules.assign_cons_of_eval heval steps

/-- Digits are divided into the company prefix and the rest. -/
theorem assign_divide (hvalue : context.field? value = some (.text text))
    (hne : value ≠ companyName)
    (hdigits : context.field? companyPrefixLengthKey = some (.text (Text.ofNat digits)))
    (steps : List Assignment) :
    Rules.assign lookup context
        (cutAt companyName value 0 companyPrefixLengthKey (.field companyPrefixLengthKey) ::
          cut name value companyPrefixLengthKey (.field companyPrefixLengthKey) :: steps) =
      Rules.assign lookup (Pairs.insert
        (context.insert (.text companyName) (.text (text.take digits)))
          (.text name) (.text (text.drop digits))) steps := by
  obtain ⟨cut, hcut⟩ : ∃ cut : Context,
      cut = context.insert (.text companyName) (.text (text.take digits)) := ⟨_, rfl⟩
  have hcutValue : cut.field? value = some (.text text) := by
    rw [hcut, Context.field?_insert, if_neg hne, hvalue]
  have hcutDigits : cut.field? companyPrefixLengthKey = some (.text (Text.ofNat digits)) := by
    rw [hcut, Context.field?_insert, if_neg (by decide), hdigits]
  rw [assign_cutAt hvalue (RuleParam.integer_field hdigits), List.drop_zero, ← hcut,
    assign_cut hcutValue (RuleParam.integer_field hcutDigits)]

/-- Fields are joined, and the check digit of the joined ones is added. -/
theorem assign_join {first : Text} {rest texts : List Text}
    (hholds : context.Holds (first :: rest) texts)
    (hdigit : CheckDigit.compute (Text.join texts) = .ok digit) (steps : List Assignment) :
    Rules.assign lookup context (concat name first rest :: check name :: steps) =
      Rules.assign lookup (Pairs.insert (context.insert (.text name) (.text (Text.join texts)))
        (.text checkName) (.text digit)) steps := by
  have hname : Context.field? (context.insert (.text name) (.text (Text.join texts))) name =
      some (.text (Text.join texts)) := by
    rw [Context.field?_insert, if_pos rfl]
  rw [assign_concat hholds, assign_check hname hdigit]

end

/-- The key of an element string is divided at the length of the company prefix. -/
theorem exists_extract (hnodup : rule.names.Nodup)
    (hholds : context.Holds rule.fieldNames (rule.fieldTexts body digit))
    (hlen : body.length = rule.bodyLength)
    (hdigits : context.field? companyPrefixLengthKey = some (.text (Text.ofNat digits))) :
    ∃ result, Rules.assign lookup context rule.extract = .ok result ∧
      result.field? companyName = some (.text (rule.company digits body)) ∧
      result.field? rule.referenceName = some (.text (rule.reference digits body)) := by
  cases rule with
  | leading key indicator middle remainder reference count =>
    obtain ⟨hkey, -⟩ := List.forall₂_cons.mp hholds
    change body.length = count + 1 at hlen
    have hfirst : (List.drop 0 (body ++ digit)).take 1 = body.take 1 := by
      rw [List.drop_zero, List.take_append_of_le_length (by omega)]
    have hmiddle : (List.drop 1 (body ++ digit)).take count = body.drop 1 := by
      rw [List.drop_append_of_le_length (by omega)]
      exact List.take_left' (by simp; omega)
    simp only [names, List.nodup_cons, List.mem_cons, List.not_mem_nil, or_false, not_or] at hnodup
    -- the contexts after the indicator, after the digits behind it and after their division
    obtain ⟨c₁, h₁⟩ : ∃ c : Context, c = context.insert (.text indicator) (.text (body.take 1)) :=
      ⟨_, rfl⟩
    obtain ⟨c₂, h₂⟩ : ∃ c : Context, c = c₁.insert (.text middle) (.text (body.drop 1)) := ⟨_, rfl⟩
    obtain ⟨c₃, h₃⟩ : ∃ c : Context,
      c = Pairs.insert (c₂.insert (.text companyName) (.text ((body.drop 1).take digits)))
        (.text remainder) (.text ((body.drop 1).drop digits)) := ⟨_, rfl⟩
    have hkey₁ : c₁.field? key = some (.text (body ++ digit)) := by
      grind [Context.field?_insert]
    have hmiddle₂ : c₂.field? middle = some (.text (body.drop 1)) := by
      grind [Context.field?_insert]
    have hdigits₂ : c₂.field? companyPrefixLengthKey = some (.text (Text.ofNat digits)) := by
      grind [Context.field?_insert]
    have hindicator₃ : c₃.field? indicator = some (.text (body.take 1)) := by
      grind [Context.field?_insert]
    have hremainder₃ : c₃.field? remainder = some (.text ((body.drop 1).drop digits)) := by
      grind [Context.field?_insert]
    have hcompany₃ : c₃.field? companyName = some (.text ((body.drop 1).take digits)) := by
      grind [Context.field?_insert]
    refine ⟨c₃.insert (.text reference)
      (.text (Text.join [body.take 1, (body.drop 1).drop digits])), ?_, ?_, ?_⟩
    · rw [extract, assign_cutAt hkey (RuleParam.integer_literal _ 1), hfirst, ← h₁,
        assign_cutAt hkey₁ (RuleParam.integer_literal _ count), hmiddle, ← h₂,
        assign_divide hmiddle₂ (by grind) hdigits₂, ← h₃,
        assign_concat (.cons hindicator₃ (.cons hremainder₃ .nil))]
      rfl
    · rw [Context.field?_insert, if_neg (by grind)]
      exact hcompany₃
    · rw [referenceName, Context.field?_insert, if_pos rfl]
      simp [Text.join, KeyRule.reference]
  | joined key middle reference count =>
    obtain ⟨hkey, -⟩ := List.forall₂_cons.mp hholds
    change body.length = count at hlen
    have hmiddle : (List.drop 0 (body ++ digit)).take count = body := by
      rw [List.drop_zero, List.take_left' hlen]
    simp only [names, List.nodup_cons, List.mem_cons, List.not_mem_nil, or_false, not_or] at hnodup
    obtain ⟨c₁, h₁⟩ : ∃ c : Context, c = context.insert (.text middle) (.text body) := ⟨_, rfl⟩
    have hmiddle₁ : c₁.field? middle = some (.text body) := by
      grind [Context.field?_insert]
    have hdigits₁ : c₁.field? companyPrefixLengthKey = some (.text (Text.ofNat digits)) := by
      grind [Context.field?_insert]
    refine ⟨Pairs.insert (c₁.insert (.text companyName) (.text (body.take digits)))
      (.text reference) (.text (body.drop digits)), ?_, ?_, ?_⟩
    · rw [extract, assign_cutAt hkey (RuleParam.integer_literal _ count), hmiddle, ← h₁,
        assign_divide hmiddle₁ (by grind) hdigits₁]
      rfl
    · grind [Context.field?_insert, KeyRule.company]
    · grind [Context.field?_insert, KeyRule.reference, referenceName]
  | separate middle reference count =>
    obtain ⟨hmiddle, -⟩ := List.forall₂_cons.mp hholds
    simp only [names, List.nodup_cons, List.mem_cons, List.not_mem_nil, or_false, not_or] at hnodup
    refine ⟨Pairs.insert (context.insert (.text companyName) (.text (body.take digits)))
      (.text reference) (.text (body.drop digits)), ?_, ?_, ?_⟩
    · rw [extract, assign_divide hmiddle (by grind) hdigits]
      rfl
    · grind [Context.field?_insert, KeyRule.company]
    · grind [Context.field?_insert, KeyRule.reference, referenceName]

/-- A company prefix and a reference are joined to a key with its check digit. -/
theorem exists_format (hnodup : rule.names.Nodup) {company reference : Text}
    (hcompany : context.field? companyName = some (.text company))
    (hreference : context.field? rule.referenceName = some (.text reference))
    (hdigit : CheckDigit.compute (rule.join company reference) = .ok digit) :
    ∃ result, Rules.assign lookup context rule.format = .ok result ∧
      result.Holds rule.fieldNames (rule.fieldTexts (rule.join company reference) digit) := by
  have htwo (first second : Text) : Text.join [first, second] = first ++ second := by
    simp [Text.join]
  cases rule with
  | leading key indicator middle remainder name count =>
    change context.field? name = _ at hreference
    simp only [names, List.nodup_cons, List.mem_cons, List.not_mem_nil, or_false, not_or] at hnodup
    obtain ⟨body, hbody⟩ :
      ∃ body, body = Text.join [reference.take 1, company, reference.drop 1] := ⟨_, rfl⟩
    have hjoin : (KeyRule.leading key indicator middle remainder name count).join company reference =
        body := by
      simp [hbody, Text.join, join]
    rw [hjoin] at hdigit ⊢
    -- the contexts after the indicator, after the digits behind it and after the check digit
    obtain ⟨c₁, h₁⟩ : ∃ c : Context, c = context.insert (.text indicator)
      (.text ((List.drop 0 reference).take 1)) := ⟨_, rfl⟩
    obtain ⟨c₂, h₂⟩ : ∃ c : Context, c = c₁.insert (.text remainder) (.text (reference.drop 1)) :=
      ⟨_, rfl⟩
    obtain ⟨c₃, h₃⟩ : ∃ c : Context, c = Pairs.insert (c₂.insert (.text middle) (.text body))
      (.text checkName) (.text digit) := ⟨_, rfl⟩
    have hreference₁ : c₁.field? name = some (.text reference) := by
      grind [Context.field?_insert]
    have hindicator₂ : c₂.field? indicator = some (.text (reference.take 1)) := by
      rw [List.drop_zero] at h₁
      grind [Context.field?_insert]
    have hcompany₂ : c₂.field? companyName = some (.text company) := by
      grind [Context.field?_insert]
    have hremainder₂ : c₂.field? remainder = some (.text (reference.drop 1)) := by
      grind [Context.field?_insert]
    have hmiddle₃ : c₃.field? middle = some (.text body) := by
      grind [Context.field?_insert]
    have hcheck₃ : c₃.field? checkName = some (.text digit) := by
      grind [Context.field?_insert]
    refine ⟨c₃.insert (.text key) (.text (Text.join [body, digit])), ?_, .cons ?_ .nil⟩
    · rw [format, assign_cutAt hreference (RuleParam.integer_literal _ 1), ← h₁,
        assign_cut hreference₁ (RuleParam.integer_literal _ 1), ← h₂,
        assign_join (.cons hindicator₂ (.cons hcompany₂ (.cons hremainder₂ .nil)))
          (hbody ▸ hdigit), ← hbody, ← h₃, assign_concat (.cons hmiddle₃ (.cons hcheck₃ .nil))]
      rfl
    · rw [Context.field?_insert, if_pos rfl, htwo]
  | joined key middle name count =>
    change context.field? name = _ at hreference
    change CheckDigit.compute (company ++ reference) = _ at hdigit
    simp only [names, List.nodup_cons, List.mem_cons, List.not_mem_nil, or_false, not_or] at hnodup
    obtain ⟨c₁, h₁⟩ : ∃ c : Context,
      c = Pairs.insert (context.insert (.text middle) (.text (company ++ reference)))
        (.text checkName) (.text digit) := ⟨_, rfl⟩
    have hmiddle₁ : c₁.field? middle = some (.text (company ++ reference)) := by
      grind [Context.field?_insert]
    have hcheck₁ : c₁.field? checkName = some (.text digit) := by
      grind [Context.field?_insert]
    refine ⟨c₁.insert (.text key) (.text (Text.join [company ++ reference, digit])), ?_,
      .cons ?_ .nil⟩
    · rw [format, assign_join (.cons hcompany (.cons hreference .nil)) (htwo _ _ ▸ hdigit), htwo,
        ← h₁, assign_concat (.cons hmiddle₁ (.cons hcheck₁ .nil))]
      rfl
    · rw [Context.field?_insert, if_pos rfl, htwo]
      rfl
  | separate middle name count =>
    change context.field? name = _ at hreference
    change CheckDigit.compute (company ++ reference) = _ at hdigit
    simp only [names, List.nodup_cons, List.mem_cons, List.not_mem_nil, or_false, not_or] at hnodup
    refine ⟨Pairs.insert (context.insert (.text middle) (.text (company ++ reference)))
      (.text checkName) (.text digit), ?_, .cons ?_ (.cons ?_ .nil)⟩
    · rw [format, assign_join (.cons hcompany (.cons hreference .nil)) (htwo _ _ ▸ hdigit), htwo]
      rfl
    · grind [Context.field?_insert, KeyRule.join]
    · grind [Context.field?_insert]

/-- Dividing a key and joining its pieces gives the key back. -/
theorem join_company_reference (rule : KeyRule) (digits : Nat) (hlen : body.length = rule.bodyLength) :
    rule.join (rule.company digits body) (rule.reference digits body) = body := by
  cases rule with
  | leading key indicator middle remainder reference count =>
    change body.length = count + 1 at hlen
    obtain ⟨c, rest, rfl⟩ := List.exists_cons_of_length_pos (by omega : 0 < body.length)
    simp [join, company, KeyRule.reference]
  | joined key middle reference count => exact List.take_append_drop digits body
  | separate middle reference count => exact List.take_append_drop digits body

theorem length_join (rule : KeyRule) {company reference : Text}
    (hahead : rule.ahead ≤ reference.length) :
    (rule.join company reference).length = company.length + reference.length := by
  cases rule with
  | leading key indicator middle remainder name count =>
    change 1 ≤ reference.length at hahead
    simp only [join, List.length_append, List.length_take, List.length_drop]
    omega
  | joined key middle name count => exact List.length_append
  | separate middle name count => exact List.length_append

/-- A key that is joined divides into the company prefix and the reference again. -/
theorem company_reference_join (rule : KeyRule) {company reference : Text}
    (hahead : rule.ahead ≤ reference.length) :
    rule.company company.length (rule.join company reference) = company ∧
      rule.reference company.length (rule.join company reference) = reference := by
  cases rule with
  | leading key indicator middle remainder name count =>
    obtain ⟨c, rest, rfl⟩ := List.exists_cons_of_length_pos hahead
    simp [join, KeyRule.company, KeyRule.reference]
  | joined key middle name count => exact ⟨List.take_left, List.drop_left⟩
  | separate middle name count => exact ⟨List.take_left, List.drop_left⟩

theorem digits_join (rule : KeyRule) {company reference : Text}
    (hcompany : Numeral.Digits 10 company) (hreference : Numeral.Digits 10 reference) :
    Numeral.Digits 10 (rule.join company reference) := by
  cases rule with
  | leading key indicator middle remainder name count =>
    exact Numeral.digits_append.mpr
      ⟨Numeral.digits_append.mpr ⟨hreference.take 1, hcompany⟩, hreference.drop 1⟩
  | joined key middle name count => exact Numeral.digits_append.mpr ⟨hcompany, hreference⟩
  | separate middle name count => exact Numeral.digits_append.mpr ⟨hcompany, hreference⟩

theorem digits_company (rule : KeyRule) (digits : Nat) (h : Numeral.Digits 10 body) :
    Numeral.Digits 10 (rule.company digits body) := by
  cases rule with
  | leading key indicator middle remainder name count => exact (h.drop 1).take digits
  | joined key middle name count => exact h.take digits
  | separate middle name count => exact h.take digits

theorem digits_reference (rule : KeyRule) (digits : Nat) (h : Numeral.Digits 10 body) :
    Numeral.Digits 10 (rule.reference digits body) := by
  cases rule with
  | leading key indicator middle remainder name count =>
    exact Numeral.digits_append.mpr ⟨h.take 1, (h.drop 1).drop digits⟩
  | joined key middle name count => exact h.drop digits
  | separate middle name count => exact h.drop digits

/-- The digits of a key are those of the company prefix and of the reference. -/
theorem length_company_reference {referenceDigits : Nat} (hlen : body.length = rule.bodyLength)
    (hsum : digits + referenceDigits = rule.bodyLength) (hahead : rule.ahead ≤ referenceDigits) :
    (rule.company digits body).length = digits ∧
      (rule.reference digits body).length = referenceDigits := by
  cases rule with
  | leading key indicator middle remainder name count =>
    change body.length = count + 1 at hlen
    change digits + referenceDigits = count + 1 at hsum
    change 1 ≤ referenceDigits at hahead
    simp only [company, KeyRule.reference, List.length_append, List.length_take, List.length_drop]
    omega
  | joined key middle name count =>
    change body.length = count at hlen
    change digits + referenceDigits = count at hsum
    simp only [company, KeyRule.reference, List.length_take, List.length_drop]
    omega
  | separate middle name count =>
    change body.length = count at hlen
    change digits + referenceDigits = count at hsum
    simp only [company, KeyRule.reference, List.length_take, List.length_drop]
    omega

end KeyRule

end EpcTag
