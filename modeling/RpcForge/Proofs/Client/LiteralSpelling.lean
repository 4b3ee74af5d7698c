import Mathlib.Tactic.SplitIfs
import RpcForge.Json.Printer
import RpcForge.Proofs.Client.TypeGrammar

/-!
# Constants as literals

What is written for a number is a numeral, and what is written for a text, with its quotes,
backslashes and controls escaped as in JSON, is a string that holds that text.
-/

namespace RpcForge.TypeGrammar

open RpcForge.Json

/-! ## Numerals -/

theorem isDigits_toDigits (n : Nat) : IsDigits (Nat.toDigits 10 n) :=
  ⟨Nat.toDigits_ne_nil, fun _ hc ↦ Nat.isDigit_of_mem_toDigits (by decide) (by decide) hc⟩

private theorem isDigits_singleton {c : Char} (hc : c.isDigit = true) : IsDigits [c] :=
  ⟨by simp, by simpa using hc⟩

private theorem IsDigits.take_succ {text : List Char} (h : IsDigits text) (n : Nat) :
    IsDigits (text.take (n + 1)) := by
  refine ⟨?_, fun c hc ↦ h.2 c (List.mem_of_mem_take hc)⟩
  intro ht
  rcases List.take_eq_nil_iff.mp ht with hn | ht
  · exact absurd hn (Nat.succ_ne_zero n)
  · exact h.1 ht

theorem IsDigits.drop {text : List Char} (h : IsDigits text) {n : Nat} (hn : text.drop n ≠ []) :
    IsDigits (text.drop n) :=
  ⟨hn, fun c hc ↦ h.2 c (List.mem_of_mem_drop hc)⟩

private theorem isDigit_of_mem_zeros {n : Nat} {c : Char} (hc : c ∈ List.replicate n '0') :
    c.isDigit = true := by
  rw [List.eq_of_mem_replicate hc]
  rfl

private theorem IsDigits.append_zeros {text : List Char} (h : IsDigits text) (n : Nat) :
    IsDigits (text ++ List.replicate n '0') := by
  refine ⟨by simp [h.1], fun c hc ↦ ?_⟩
  rcases List.mem_append.mp hc with hc | hc
  · exact h.2 c hc
  · exact isDigit_of_mem_zeros hc

private theorem IsDigits.zeros_append {text : List Char} (h : IsDigits text) (n : Nat) :
    IsDigits (List.replicate n '0' ++ text) := by
  refine ⟨by simp [h.1], fun c hc ↦ ?_⟩
  rcases List.mem_append.mp hc with hc | hc
  · exact isDigit_of_mem_zeros hc
  · exact h.2 c hc

/-- A sign in front of what is written for a number, if it is a negative one. -/
private theorem sign_cases (p : Prop) [Decidable p] :
    (if p then ['-'] else []) = [] ∨ (if p then ['-'] else []) = ['-'] := by
  by_cases h : p <;> simp [h]

private theorem isNumeral_renderInt (n : Int) : IsNumeral (Number.renderInt n) := by
  have h := IsNumeral.mk (sign_cases (n < 0)) (isDigits_toDigits n.natAbs) (.inl rfl) (.inl rfl)
  rwa [List.append_nil, List.append_nil] at h

private theorem isNumeral_positional {sign digits : List Char} (hs : sign = [] ∨ sign = ['-'])
    (hd : IsDigits digits) (exponent : Int) :
    IsNumeral (sign ++ Number.positional digits exponent) := by
  rw [Number.positional]
  split
  · have h := IsNumeral.mk hs (isDigits_singleton (c := '0') rfl)
      (.inr ⟨_, hd.zeros_append (-exponent - 1).toNat, rfl⟩) (.inl rfl)
    simpa using h
  · have hw := (hd.take_succ exponent.toNat).append_zeros (exponent.toNat + 1 - digits.length)
    have hf : IsDigits (if (digits.drop (exponent.toNat + 1)).isEmpty then ['0']
        else digits.drop (exponent.toNat + 1)) := by
      split
      · exact isDigits_singleton rfl
      · next he => exact hd.drop (by simpa using he)
    have h := IsNumeral.mk hs hw (.inr ⟨_, hf, rfl⟩) (.inl rfl)
    simpa only [List.append_nil, List.append_assoc] using h

private theorem isNumeral_scientific {sign digits : List Char} (hs : sign = [] ∨ sign = ['-'])
    (hd : IsDigits digits) (exponent : Int) :
    IsNumeral (sign ++ Number.scientific digits exponent) := by
  have hf : (if digits.length ≤ 1 then [] else '.' :: digits.drop 1) = [] ∨
      ∃ ds, IsDigits ds ∧ (if digits.length ≤ 1 then [] else '.' :: digits.drop 1) = '.' :: ds := by
    by_cases hl : digits.length ≤ 1
    · exact .inl (if_pos hl)
    · refine .inr ⟨digits.drop 1, hd.drop ?_, if_neg hl⟩
      rwa [ne_eq, List.drop_eq_nil_iff]
  have he : (if exponent < 0 then '-' else '+') = '+' ∨
      (if exponent < 0 then '-' else '+') = '-' := by
    by_cases hn : exponent < 0 <;> simp [hn]
  have h := IsNumeral.mk hs (hd.take_succ 0) hf
    (.inr ⟨_, _, he, isDigits_toDigits exponent.natAbs, rfl⟩)
  simpa only [Number.scientific, List.append_assoc, List.cons_append, List.nil_append] using h

theorem isNumeral_render (n : Number) : IsNumeral n.render.toList := by
  cases n with
  | int n =>
    rw [Number.render, String.toList_ofList]
    exact isNumeral_renderInt n
  | double d =>
    rw [Number.render, String.toList_ofList, Number.renderDouble]
    have hs := sign_cases (d.isNegative = true)
    have hd := isDigits_toDigits d.shortest.digits
    by_cases hp : Number.isPositional d.shortest.exponent
    · rw [if_pos hp]
      exact isNumeral_positional hs hd _
    · rw [if_neg hp]
      exact isNumeral_scientific hs hd _

/-! ## Strings -/

/-- The digits of the code of a control are read back as that code. -/
theorem hexDigits_control :
    ∀ n < 0x20, (Text.hexDigits 4 n).length = 4 ∧ hexValue? (Text.hexDigits 4 n) = some n := by
  decide

/-- One more character, as it is written inside a JSON string. -/
private theorem Escaped.jsonEscape_append (c : Char) {content text : List Char}
    (h : Escaped content text) : Escaped (c :: content) (Text.jsonEscape c ++ text) := by
  rw [Text.jsonEscape]
  split_ifs with h₁ h₂ h₃ h₄ h₅ h₆ h₇ h₈
  · subst h₁
    exact .short (by decide) h
  · subst h₂
    exact .short (by decide) h
  · subst h₃
    exact .short (by decide) h
  · subst h₄
    exact .short (by decide) h
  · subst h₅
    exact .short (by decide) h
  · subst h₆
    exact .short (by decide) h
  · subst h₇
    exact .short (by decide) h
  · obtain ⟨hl, hv⟩ := hexDigits_control c.toNat h₈
    exact .code hl hv h
  · exact .plain (by simp [h₁, h₂, h₅, h₆]) h

private theorem escaped_flatMap_jsonEscape (content : List Char) :
    Escaped content (content.flatMap Text.jsonEscape) := by
  induction content with
  | nil => exact .nil
  | cons c content ih =>
    rw [List.flatMap_cons]
    exact ih.jsonEscape_append c

theorem readsLiteral_quote (s : String) : ReadsLiteral (.text s) (Text.quote s).toList := by
  have h := ReadsLiteral.text (escaped_flatMap_jsonEscape s.toList)
  rw [String.ofList_toList] at h
  rwa [Text.quote, String.toList_ofList]

end RpcForge.TypeGrammar
