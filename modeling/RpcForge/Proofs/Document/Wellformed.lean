import Mathlib.Tactic.MkIffOfInductiveProp
import RpcForge.Document.Extensions
import RpcForge.Document.Reference
import RpcForge.Proofs.Client.TypeGrammar
import RpcForge.Proofs.Document.Check
import RpcForge.Proofs.Text.Parts

/-!
# Well-formed texts

What the rules for single texts ask for, said of the characters of a text. Each check passes for the
texts that obey its rule and for no others.
-/

namespace RpcForge

open TypeGrammar (IsName)

namespace Wellformed

/-! ## Rules -/

/-- An address has a scheme, or it is an absolute path, or it begins with `localhost`. -/
def IsUrl (url : String) : Prop :=
  "://".toList <:+: url.toList ∨ "/".toList <+: url.toList ∨ "localhost".toList <+: url.toList

/-- A mail address is an account up to the first `@` and a domain with a point in it. -/
def IsEmail (email : String) : Prop :=
  ∃ account domain : String, account ≠ "" ∧ '@' ∉ account.toList ∧ '.' ∈ domain.toList ∧
    email = account ++ "@" ++ domain

/-- A text is filled if some character of it is no blank. -/
def IsFilled (text : String) : Prop :=
  ∃ c ∈ text.toList, Text.isBlank c = false

/-- A text is unbroken if it has characters and none of them is a blank. -/
def IsUnbroken (text : String) : Prop :=
  text ≠ "" ∧ ∀ c ∈ text.toList, Text.isBlank c = false

/-- The name of a method is unbroken and begins with `rpc.` only if it is the one for discovery. -/
def IsMethodName (name : String) : Prop :=
  IsUnbroken name ∧ ("rpc.".toList <+: name.toList → name = "rpc.discover")

/-- The key of an extension begins with `x-` and goes on after it. -/
def IsExtensionKey (key : String) : Prop :=
  ∃ rest : String, rest ≠ "" ∧ key = "x-" ++ rest

/-! ## Checks -/

theorem checkUrl_eq_ok_iff (url : String) : checkUrl url = .ok () ↔ IsUrl url := by
  by_cases h : url = ""
  · subst h
    exact iff_of_false (by decide) (by unfold IsUrl; decide)
  · rw [checkUrl, if_neg (by simpa using h)]
    split
    · next hu => simpa [Text.hasPart_iff, Text.startsWith_iff, or_assoc, IsUrl] using hu
    · next hu => simpa [Text.hasPart_iff, Text.startsWith_iff, or_assoc, IsUrl] using hu

/-- A text that is cut at its first `@` is an account and a domain. -/
theorem checkEmail_eq_ok_iff (email : String) : checkEmail email = .ok () ↔ IsEmail email := by
  have hc (account domain : String) : Text.cut? '@' email = some (account, domain) ↔
      '@' ∉ account.toList ∧ email = account ++ "@" ++ domain := by
    rw [Text.cut?_eq_some_iff, ← String.toList_inj]
    simp
  unfold checkEmail
  constructor
  · intro h
    split at h
    · next account domain hm =>
      obtain ⟨ha, he⟩ := (hc account domain).mp hm
      split at h
      · cases h
      · next hp =>
        simp only [Bool.or_eq_true, String.isEmpty_iff, Bool.not_eq_true', not_or] at hp
        exact ⟨account, domain, hp.1.1, ha, by simpa [Text.hasChar] using hp.2, he⟩
    · cases h
  · rintro ⟨account, domain, hn, ha, hd, he⟩
    have hd' : domain ≠ "" := by
      rintro rfl
      simp at hd
    simp [(hc account domain).mpr ⟨ha, he⟩, hn, hd, hd', Text.hasChar]

theorem isBlankText_eq_false_iff (text : String) :
    Text.isBlankText text = false ↔ IsFilled text := by
  rw [Text.isBlankText, List.all_eq_false, IsFilled]
  simp

theorem checkFormatVersion_eq_ok_iff (version : String) :
    checkFormatVersion version = .ok () ↔ version ∈ supportedVersions := by
  have hs : ∀ version ∈ supportedVersions, checkVersion version = .ok () := by decide
  simp only [checkFormatVersion, isSupported, Check.first_cons_eq_ok_iff]
  by_cases h : version ∈ supportedVersions
  · simp [h, hs]
  · simp [h]

/-- The keys that are allowed are the names. -/
theorem checkComponentKey_eq_ok_iff (key : String) :
    checkComponentKey key = .ok () ↔ IsName key.toList := by
  have he : key.isEmpty = true ↔ key.toList = [] := by
    rw [String.isEmpty_iff, ← String.toList_eq_nil_iff]
  rw [checkComponentKey, IsName, ne_eq, ← he]
  by_cases h : key.isEmpty
  · rw [if_pos h]
    exact ⟨fun hb ↦ (nomatch hb), fun hn ↦ absurd h hn.1⟩
  · rw [if_neg h]
    cases hf : key.toList.find? fun c ↦ !isKeyChar c with
    | none =>
      have hk := List.find?_eq_none.mp hf
      simp only [Bool.not_eq_true', Bool.not_eq_false] at hk
      exact ⟨fun _ ↦ ⟨h, hk⟩, fun _ ↦ rfl⟩
    | some c =>
      have hk := List.find?_some hf
      rw [Bool.not_eq_true'] at hk
      refine ⟨fun hb ↦ (nomatch hb), fun hn ↦ ?_⟩
      rw [hn.2 c (List.mem_of_find?_eq_some hf)] at hk
      cases hk

theorem checkDescriptorName_eq_ok_iff (name : String) :
    checkDescriptorName name = .ok () ↔ IsUnbroken name := by
  simp [checkDescriptorName, IsUnbroken]

theorem checkMethodName_eq_ok_iff (name : String) :
    checkMethodName name = .ok () ↔ IsMethodName name := by
  simp [checkMethodName, IsMethodName, IsUnbroken, Text.startsWith_iff, and_assoc]

/-- No key is repeated exactly if the keys differ from each other and from those seen before. -/
theorem firstRepeated?_eq_none_iff (seen keys : List String) :
    firstRepeated? seen keys = none ↔ keys.Nodup ∧ ∀ key ∈ keys, key ∉ seen := by
  induction keys generalizing seen with
  | nil => simp [firstRepeated?]
  | cons key rest ih =>
    rw [firstRepeated?]
    by_cases hs : key ∈ seen
    · simp [hs]
    · have hc : seen.contains key = false := by simpa using hs
      rw [List.nodup_cons, List.forall_mem_cons]
      simp only [hc, Bool.false_eq_true, if_false, ih, List.mem_cons, not_or]
      constructor
      · rintro ⟨hn, hd⟩
        exact ⟨⟨fun hm ↦ (hd key hm).1 rfl, hn⟩, hs, fun k hk ↦ (hd k hk).2⟩
      · rintro ⟨⟨hk, hn⟩, -, hd⟩
        refine ⟨hn, fun k hm ↦ ⟨?_, hd k hm⟩⟩
        rintro rfl
        exact hk hm

theorem checkDistinct_eq_ok_iff (context : String) (keys : List String) :
    checkDistinct context keys = .ok () ↔ keys.Nodup := by
  have h := firstRepeated?_eq_none_iff [] keys
  unfold checkDistinct
  cases hr : firstRepeated? [] keys with
  | none => simpa [hr] using h
  | some key => simpa [hr] using h

end Wellformed

namespace Extensions

/-- The keys beside the declared fields are keys of extensions. -/
def Valid (extensions : Extensions) : Prop :=
  ∀ key ∈ extensions.keys, Wellformed.IsExtensionKey key

theorem checkKey_eq_ok_iff (key : String) :
    checkKey key = .ok () ↔ Wellformed.IsExtensionKey key := by
  have hs : Text.startsWith key "x-" = true ↔ ∃ rest, key = "x-" ++ rest := by
    rw [Text.startsWith_iff, List.prefix_iff_exists_append_eq]
    simp only [← String.toList_inj, String.toList_append]
    exact ⟨fun ⟨rest, h⟩ ↦ ⟨.ofList rest, by simpa using h.symm⟩,
      fun ⟨rest, h⟩ ↦ ⟨rest.toList, h.symm⟩⟩
  rw [checkKey, Wellformed.IsExtensionKey]
  simp only [Bool.not_eq_true', ne_eq, Check.broken_ne_ok, not_false_eq_true,
    Check.ite_eq_ok_iff, Bool.not_eq_false, hs, beq_iff_eq, Check.pass_eq_ok, and_true]
  constructor
  · rintro ⟨⟨rest, rfl⟩, hn⟩
    exact ⟨rest, fun he ↦ hn (by rw [he]; rfl), rfl⟩
  · rintro ⟨rest, hn, rfl⟩
    exact ⟨⟨rest, rfl⟩, fun he ↦ hn (by simpa using he)⟩

theorem check_eq_ok_iff (extensions : Extensions) :
    extensions.check = .ok () ↔ extensions.Valid := by
  simp [check, checkKey_eq_ok_iff, Valid]

end Extensions

namespace Reference

/-- A reference points to the component of a kind under a name. -/
def PointsTo (r : Reference) (kind name : String) : Prop :=
  kind ≠ "" ∧ '/' ∉ kind.toList ∧ name ≠ "" ∧ r = component kind name

/-- A reference to elsewhere is an address, and one into the document begins with `#/`; one to a
component has a known kind and a well-formed name. -/
@[mk_iff] structure Valid (r : Reference) : Prop where
  /-- What does not point into the document is an address. -/
  elsewhere : ¬ "#".toList <+: r.pointer.toList → Wellformed.IsUrl r.pointer
  /-- What points into the document goes on with a slash. -/
  inside : "#".toList <+: r.pointer.toList → "#/".toList <+: r.pointer.toList
  /-- A component has a known kind and a well-formed name. -/
  component : ∀ kind name, r.PointsTo kind name → kind ∈ componentKinds ∧ IsName name.toList

/-- The parts of a reference are the kind and the name of the component that it points to. -/
theorem componentParts?_eq_some_iff (r : Reference) (kind name : String) :
    r.componentParts? = some (kind, name) ↔ r.PointsTo kind name := by
  have hp (path : String) : Text.cut? '/' path = some (kind, name) ↔
      '/' ∉ kind.toList ∧ path = kind ++ "/" ++ name := by
    rw [Text.cut?_eq_some_iff, ← String.toList_inj]
    simp
  simp only [componentParts?, Option.bind_eq_bind, Option.bind_eq_some_iff,
    Text.stripPrefix?_eq_some_iff, PointsTo]
  constructor
  · rintro ⟨path, he, ⟨k, n⟩, hk, hn⟩
    split at hn
    · cases hn
    · next hne =>
      obtain ⟨rfl, rfl⟩ := Prod.mk.inj (Option.some.inj hn)
      obtain ⟨hs, rfl⟩ := (hp path).mp hk
      simp only [Bool.or_eq_true, String.isEmpty_iff, not_or] at hne
      refine ⟨hne.1, hs, hne.2, ?_⟩
      obtain ⟨pointer⟩ := r
      simpa [component, String.append_assoc] using he
  · rintro ⟨hk, hs, hn, rfl⟩
    refine ⟨kind ++ "/" ++ name, ?_, (kind, name), (hp _).mpr ⟨hs, rfl⟩, ?_⟩
    · simp [component, String.append_assoc]
    · simp [hk, hn]

private theorem isInternal_iff (r : Reference) :
    r.isInternal = true ↔ "#".toList <+: r.pointer.toList :=
  Text.startsWith_iff _ _

/-- A reference that points to a component begins as every reference into the document does. -/
theorem PointsTo.start {r : Reference} {kind name : String} (h : r.PointsTo kind name) :
    "#/".toList <+: r.pointer.toList := by
  obtain ⟨-, -, -, rfl⟩ := h
  simp [Reference.component, componentStart]

theorem check_eq_ok_iff (r : Reference) : r.check = .ok () ↔ r.Valid := by
  rw [check, valid_iff, ← isInternal_iff, ← Wellformed.checkUrl_eq_ok_iff]
  by_cases hi : r.isInternal = true
  · have hne : r.pointer ≠ "" := by
      intro he
      simp [isInternal_iff, he] at hi
    cases hp : r.componentParts? with
    | none =>
      have hc (kind name : String) : ¬ r.PointsTo kind name := by
        simp [← componentParts?_eq_some_iff, hp]
      simp [hne, hi, hc, Text.startsWith_iff]
    | some parts =>
      obtain ⟨kind, name⟩ := parts
      have hs := ((componentParts?_eq_some_iff r kind name).mp hp).start
      by_cases hk : kind ∈ componentKinds
      · simpa [← componentParts?_eq_some_iff, ← Wellformed.checkComponentKey_eq_ok_iff, hne, hi, hp,
          hk] using fun _ ↦ hs
      · simp [← componentParts?_eq_some_iff, hne, hi, hp, hk]
  · by_cases hne : r.pointer = ""
    · simp [hne, hi, Wellformed.checkUrl]
    · have hc (kind name : String) : ¬ r.PointsTo kind name := by
        intro h
        exact hi ((isInternal_iff r).mpr (.trans (by decide) h.start))
      simp [hne, hi, hc]

end Reference

end RpcForge
