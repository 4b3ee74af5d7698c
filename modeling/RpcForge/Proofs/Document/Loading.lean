import RpcForge.Proofs.Json.Reading
import RpcForge.Run.Loading

/-!
# Two ways to a document

A document is read from its text in one go, or from the plain value that was read from the text
before. Where no object of the text repeats a key, both ways lead to the same documents; the second
one is how files are loaded.
-/

namespace RpcForge.Document

open RpcForge.Json

/-- A value is a document if it has the shape of one. -/
theorem ofValue_eq_ok_iff (v : Value) (document : Document) :
    ofValue v = .ok document ↔ documentGrammar.error? (.record .document) v = none ∧
      document = build (v.members?.getD []) := by
  unfold ofValue Part.decode
  split
  · next e he => simp [he]
  · next he => simp [he, eq_comm]

/-- Reading in one go finds a document exactly if the text can be read as a value of the shape of
one. -/
private theorem ofText_eq_ok_iff_read (text : String) (document : Document) :
    ofText text = .ok document ↔ ∃ v,
      Reader.read documentGrammar (.record .document) text = .ok v ∧
        document = build (v.members?.getD []) := by
  unfold ofText
  split
  · next e he => simp [he]
  · next v he => simp [he, eq_comm]

/-- A text that spells a value without repeated keys is a document exactly if the value is not
nested too deeply and is one. -/
private theorem ofText_eq_ok_iff_of_spells {text : String} {v : Value} (hs : v.Spells text)
    (hk : v.HasDistinctKeys) (document : Document) :
    ofText text = .ok document ↔
      v.nesting ≤ Reader.maxDepth ∧ ofValue v = .ok document := by
  rw [ofText_eq_ok_iff_read, ofValue_eq_ok_iff]
  constructor
  · rintro ⟨w, hr, he⟩
    obtain ⟨rfl, hd, hf⟩ := (Reader.read_eq_ok_iff hs hk _ _).mp hr
    exact ⟨hd, hf, he⟩
  · rintro ⟨hd, hf, he⟩
    exact ⟨v, (Reader.read_eq_ok_iff hs hk _ _).mpr ⟨rfl, hd, hf⟩, he⟩

/-- A text that spells a value without repeated keys is read as this value unless it is nested too
deeply. -/
private theorem parse_eq_ok_iff_of_spells {text : String} {v : Value} (hs : v.Spells text)
    (hk : v.HasDistinctKeys) (w : Value) :
    Value.parse text = .ok w ↔ w = v ∧ v.nesting ≤ Reader.maxDepth := by
  rw [Value.parse, Reader.read_eq_ok_iff hs hk, Grammar.error?_any]
  simp

/-- Loading a file reads its text as a plain value first. -/
theorem parse_eq_ok_iff (input text : String) (document : Document) :
    parse input text = .ok document ↔
      ∃ v, Value.parse text = .ok v ∧ ofValue v = .ok document := by
  rw [parse, bind_eq_ok_iff]
  simp only [mapError_eq_ok_iff]

/-- Where no object of a text repeats a key, the text is a document exactly if it can be read as a
plain value and the value is this document, which is how a file is loaded. -/
theorem ofText_eq_ok_iff {text : String} (distinct : RepeatsNoKey text) (document : Document) :
    (ofText text = .ok document ↔
      ∃ v, Value.parse text = .ok v ∧ ofValue v = .ok document) ∧
    ∀ input, parse input text = .ok document ↔ ofText text = .ok document := by
  have agree : ofText text = .ok document ↔
      ∃ v, Value.parse text = .ok v ∧ ofValue v = .ok document := by
    constructor
    · intro h
      obtain ⟨_, hr, _⟩ := (ofText_eq_ok_iff_read _ _).mp h
      obtain ⟨v, hs⟩ := Reader.exists_spells_of_read hr
      have hk := distinct v hs
      obtain ⟨hd, hv⟩ := (ofText_eq_ok_iff_of_spells hs hk _).mp h
      exact ⟨v, (parse_eq_ok_iff_of_spells hs hk v).mpr ⟨rfl, hd⟩, hv⟩
    · rintro ⟨w, hr, hw⟩
      obtain ⟨v, hs⟩ := Reader.exists_spells_of_read hr
      have hk := distinct v hs
      obtain ⟨rfl, hd⟩ := (parse_eq_ok_iff_of_spells hs hk w).mp hr
      exact (ofText_eq_ok_iff_of_spells hs hk _).mpr ⟨hd, hw⟩
  refine ⟨agree, fun input ↦ ?_⟩
  rw [parse_eq_ok_iff, agree]

/-- A document with one method, as a value. -/
def ping : Value :=
  .object [("openrpc", .string "1.3.2"),
    ("info", .object [("title", .string "P"), ("version", .string "1")]),
    ("methods", .array [.object [("name", .string "ping"), ("params", .array [])]])]

/-- The same document as a text. -/
def pingText : String :=
  "\x7b\"openrpc\": \"1.3.2\", \"info\": \x7b\"title\": \"P\", \"version\": \"1\"\x7d,
    \"methods\": [\x7b\"name\": \"ping\", \"params\": []\x7d]\x7d"

/-- Both ways lead from the text to one document with the method. -/
theorem ofText_eq_ok_iff_ping : RepeatsNoKey pingText ∧
    ∃ document, ofText pingText = .ok document ∧
      document.inlineMethods.map Method.name = ["ping"] ∧
      ∀ input, parse input pingText = .ok document := by
  have hs : ping.Spells pingText := by
    unfold Value.Spells
    decide +kernel
  have distinct : RepeatsNoKey pingText := by
    intro v hv
    rw [← hs.unique hv]
    simp [ping, Value.HasDistinctKeys, Value.ItemsHaveDistinctKeys,
      Value.MembersHaveDistinctKeys, Entries.keys]
  have hv : ofValue ping = .ok (build (ping.members?.getD [])) := rfl
  have hp : Value.parse pingText = .ok ping :=
    (parse_eq_ok_iff_of_spells hs (distinct ping hs) ping).mpr ⟨rfl, by decide⟩
  have h := ofText_eq_ok_iff distinct (build (ping.members?.getD []))
  have ht := h.1.mpr ⟨ping, hp, hv⟩
  exact ⟨distinct, _, ht, rfl, fun input ↦ (h.2 input).mpr ht⟩

end RpcForge.Document
