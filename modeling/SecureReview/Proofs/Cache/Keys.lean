import SecureReview.Cache.Answers
import SecureReview.Proofs.Json.Reading
import SecureReview.Proofs.Text.Utf8
import Mathlib.Data.List.Perm.Basic
import Mathlib.Data.List.Forall2
/-!
# Keys of questions

The key of a question holds its model and a hash of its canonical text.
The canonical text gives back the question up to the order of the fields
of each message (`canonicalText_eq_iff`), because the text is read back and
the fields are sorted by distinct keys. So two questions whose texts do not
collide under the hash have the same key exactly if they agree in that
sense (`key_eq_of_agree`, `agree_of_key_eq`).
-/

namespace SecureReview

/-- A message: texts by name. -/
structure Message where
  fields : List (String × String)
  nodup : (fields.map Prod.fst).Nodup

/-- What a caller asks: messages of texts, a model and a temperature. -/
structure Inquiry where
  messages : List Message
  model : String
  temperature : Float

namespace Message

/-- The message as a value. -/
def toJson (m : Message) : Json :=
  .obj (m.fields.map fun f => (f.1, .str f.2))

/-- The fields of the message as a value, by key. -/
def sorted (m : Message) : Fields :=
  (m.fields.map fun f => (f.1, Json.str f.2)).mergeSort (fun a b => !decide (b.1 < a.1))

variable {m n : Message}

theorem sortKeysFields_strings (fs : List (String × String)) :
    Json.sortKeysFields (fs.map fun f => (f.1, Json.str f.2)) = fs.map fun f => (f.1, Json.str f.2) := by
  induction fs with
  | nil => rfl
  | cons f fs ih => simp only [List.map_cons, Json.sortKeysFields, Json.sortKeys, ih]

theorem sortKeys_toJson (m : Message) : Json.sortKeys m.toJson = .obj m.sorted := by
  simp only [toJson, Json.sortKeys, sortKeysFields_strings]
  rfl

theorem sorted_perm (m : Message) : m.sorted.Perm (m.fields.map fun f => (f.1, Json.str f.2)) :=
  List.mergeSort_perm _ _

theorem nodup_sorted (m : Message) : (m.sorted.map Prod.fst).Nodup := by
  have hperm := (m.sorted_perm.map Prod.fst).nodup_iff
  rw [hperm]
  simpa [Function.comp_def] using m.nodup

theorem pairwise_sorted (m : Message) : m.sorted.Pairwise fun a b => a.1 ≤ b.1 := by
  have hsorted := @List.pairwise_mergeSort _ (fun a b : String × Json => !decide (b.1 < a.1))
    (fun a b c hab hbc => by
      simp only [Bool.not_eq_true', decide_eq_false_iff_not, String.not_lt] at *
      exact String.le_trans hab hbc)
    (fun a b => by
      simp only [Bool.or_eq_true, Bool.not_eq_true', decide_eq_false_iff_not, String.not_lt]
      exact String.le_total a.1 b.1)
    (m.fields.map fun f => (f.1, Json.str f.2))
  exact hsorted.imp fun h => by
    simpa only [Bool.not_eq_true', decide_eq_false_iff_not, String.not_lt] using h

/-- **Messages are sorted alike exactly if they have the same fields.** -/
theorem sorted_eq_iff : m.sorted = n.sorted ↔ m.fields.Perm n.fields := by
  have hinj : Function.Injective fun f : String × String => (f.1, Json.str f.2) := by
    rintro ⟨k, v⟩ ⟨l, w⟩ h
    simp only [Prod.mk.injEq, Json.str.injEq] at h
    rw [h.1, h.2]
  rw [← List.map_perm_map_iff hinj]
  constructor
  · intro h
    exact m.sorted_perm.symm.trans (h ▸ n.sorted_perm)
  · intro h
    have hperm : m.sorted.Perm n.sorted := m.sorted_perm.trans (h.trans n.sorted_perm.symm)
    refine hperm.eq_of_pairwise ?_ m.pairwise_sorted n.pairwise_sorted
    -- equal keys belong to the same field, since no key is repeated
    intro a b ha hb hab hba
    have hkey := String.le_antisymm hab hba
    exact List.inj_on_of_nodup_map n.nodup_sorted (hperm.mem_iff.1 ha) hb hkey

end Message

/-! ## The hashed text -/

namespace Sha256

theorem length_hash (message : List UInt8) : (hash message).length = 32 := by
  simp [hash, wordBytes]

theorem length_hex (bytes : List UInt8) : (hex bytes).length = 2 * bytes.length := by
  simp [hex, List.length_flatMap, Nat.mul_comm]

theorem hexDigit_inj {m n : ℕ} (hm : m < 16) (hn : n < 16) (h : Text.hexDigit m = Text.hexDigit n) :
    m = n := by
  have hread := Json.hexValue?_hexDigit m hm
  rw [h, Json.hexValue?_hexDigit n hn] at hread
  exact (Option.some.inj hread).symm

theorem hex_inj {bytes bytes' : List UInt8} : hex bytes = hex bytes' ↔ bytes = bytes' := by
  refine ⟨fun h => ?_, fun h => by rw [h]⟩
  replace h := String.ofList_inj.1 h
  induction bytes generalizing bytes' with
  | nil =>
    cases bytes' with
    | nil => rfl
    | cons b' bytes' => simp at h
  | cons b bytes ih =>
    cases bytes' with
    | nil => simp at h
    | cons b' bytes' =>
      simp only [List.flatMap_cons, List.cons_append, List.nil_append, List.cons.injEq] at h
      obtain ⟨hhigh, hlow, hrest⟩ := h
      have hb := b.toNat_lt
      have hb' := b'.toNat_lt
      have hhigh := hexDigit_inj (by omega) (by omega) hhigh
      have hlow := hexDigit_inj (by omega) (by omega) hlow
      have hbyte : b = b' := UInt8.toNat_inj.1 (by omega)
      rw [hbyte, ih hrest]

end Sha256

namespace Inquiry

variable {i j : Inquiry}

/-- The question that is asked. -/
def question (i : Inquiry) : Question :=
  ⟨.arr (i.messages.map Message.toJson), .str i.model, .float i.temperature⟩

/-- The temperature with two places. -/
def rounded (i : Inquiry) : Float :=
  Number.roundTo i.temperature 2

/-- The question with everything in order. -/
def sortedJson (i : Inquiry) : Json :=
  .obj [("messages", .arr (i.messages.map fun m => .obj m.sorted)), ("model", .str i.model),
    ("temperature", .float i.rounded)]

/-- The text that stands for the question. -/
def canonicalText (i : Inquiry) : String :=
  i.sortedJson.compact

/-- The bytes that are hashed. -/
def bytes (i : Inquiry) : List UInt8 :=
  Text.encodeUtf8 i.canonicalText

/-- The key of the question. -/
def key (i : Inquiry) : String :=
  "llm_cache:" ++ i.model ++ ":" ++ Sha256.hex (Sha256.hash i.bytes)

theorem sortKeysList_messages (ms : List Message) :
    Json.sortKeysList (ms.map Message.toJson) = ms.map fun m => .obj m.sorted := by
  induction ms with
  | nil => rfl
  | cons m ms ih => simp only [List.map_cons, Json.sortKeysList, Message.sortKeys_toJson, ih]

theorem canonical_question (i : Inquiry) : i.question.canonical = .ok i.canonicalText := by
  have hsorted : Json.sortKeys (.obj [("messages", .arr (i.messages.map Message.toJson)),
      ("model", .str i.model), ("temperature", .float i.rounded)]) = i.sortedJson := by
    simp only [Json.sortKeys, Json.sortKeysFields, sortKeysList_messages]
    rw [List.mergeSort_of_pairwise]
    · rfl
    · have horder : ¬ "model" < "messages" ∧ ¬ "temperature" < "messages" ∧ ¬ "temperature" < "model" := by
        decide
      simp only [List.pairwise_cons, List.Pairwise.nil, List.forall_mem_cons, List.not_mem_nil,
        false_implies, implies_true, horder, decide_false, Bool.not_false, and_self]
  have htemperature : i.question.roundedTemperature = .ok (.float i.rounded) := rfl
  simp only [Question.canonical, htemperature, bind, Except.bind, pure, Except.pure]
  exact congrArg (fun v => Except.ok v.compact) hsorted

theorem key_question (i : Inquiry) : i.question.key = .ok i.key := by
  simp only [Question.key, canonical_question, bind, Except.bind, pure, Except.pure]
  rfl

theorem distinctKeys_sortedJson (i : Inquiry) : i.sortedJson.distinctKeys = true := by
  have hmessage (m : Message) : (Json.obj m.sorted).distinctKeys = true := by
    refine Json.distinctKeys_obj.2 ⟨m.nodup_sorted, fun f hf => ?_⟩
    obtain ⟨g, -, rfl⟩ := List.mem_map.1 (m.sorted_perm.mem_iff.1 hf)
    rfl
  have hmessages : (Json.arr (i.messages.map fun m => .obj m.sorted)).distinctKeys = true := by
    rw [Json.distinctKeys, Json.distinctKeysList_iff]
    intro x hx
    obtain ⟨m, -, rfl⟩ := List.mem_map.1 hx
    exact hmessage m
  refine Json.distinctKeys_obj.2 ⟨by simp, fun f hf => ?_⟩
  simp only [List.mem_cons, List.not_mem_nil, or_false] at hf
  rcases hf with rfl | rfl | rfl
  · exact hmessages
  · rfl
  · rfl

/-- The questions agree up to the order of the fields of each message. -/
def Agree (i j : Inquiry) : Prop :=
  List.Forall₂ (fun m n : Message => m.fields.Perm n.fields) i.messages j.messages ∧
    i.model = j.model ∧ i.rounded = j.rounded

theorem map_sorted_eq_iff {ms ns : List Message} :
    (ms.map fun m => Json.obj m.sorted) = (ns.map fun n => Json.obj n.sorted) ↔
      List.Forall₂ (fun m n : Message => m.fields.Perm n.fields) ms ns := by
  induction ms generalizing ns with
  | nil => cases ns <;> simp
  | cons m ms ih =>
    cases ns with
    | nil => simp
    | cons n ns =>
      rw [List.map_cons, List.map_cons, List.cons.injEq, Json.obj.injEq, Message.sorted_eq_iff, ih,
        List.forall₂_cons]

theorem sortedJson_eq_iff : i.sortedJson = j.sortedJson ↔ i.Agree j := by
  simp only [sortedJson, Json.obj.injEq, List.cons.injEq, Prod.mk.injEq, Json.arr.injEq,
    Json.str.injEq, Json.float.injEq, true_and, and_true, map_sorted_eq_iff, Agree]

/-- **The canonical text tells questions apart** up to the order of the
fields of each message. -/
theorem canonicalText_eq_iff : i.canonicalText = j.canonicalText ↔ i.Agree j := by
  rw [← sortedJson_eq_iff]
  refine ⟨fun h => ?_, fun h => by rw [canonicalText, h, canonicalText]⟩
  exact Json.render_inj i.distinctKeys_sortedJson j.distinctKeys_sortedJson (String.ofList_inj.1 h)

/-- The model and the hash are read off the key, since all hashes have the
same length. -/
theorem key_eq_iff_hash : i.key = j.key ↔
    i.model = j.model ∧ Sha256.hash i.bytes = Sha256.hash j.bytes := by
  refine ⟨fun h => ?_, fun h => by rw [key, h.1, h.2, key]⟩
  have hlength (i : Inquiry) : (Sha256.hex (Sha256.hash i.bytes)).toList.length = 64 := by
    rw [String.length_toList, Sha256.length_hex, Sha256.length_hash]
  have hlist := congrArg String.toList h
  simp only [key, String.toList_append] at hlist
  obtain ⟨hfront, hdigest⟩ := List.append_inj' hlist (by rw [hlength i, hlength j])
  have hmodel := List.append_cancel_left (List.append_cancel_right hfront)
  exact ⟨String.toList_inj.1 hmodel, Sha256.hex_inj.1 (String.toList_inj.1 hdigest)⟩

/-- **Questions that agree have the same key.** -/
theorem key_eq_of_agree (h : i.Agree j) : i.key = j.key :=
  key_eq_iff_hash.2 ⟨h.2.1, by rw [bytes, canonicalText_eq_iff.2 h, bytes]⟩

/-- **Questions with the same key agree**, if their texts do not collide. -/
theorem agree_of_key_eq (hcollision : Sha256.hash i.bytes = Sha256.hash j.bytes → i.bytes = j.bytes)
    (h : i.key = j.key) : i.Agree j := by
  have hbytes := hcollision (key_eq_iff_hash.1 h).2
  exact canonicalText_eq_iff.1 (Text.encodeUtf8_inj.1 hbytes)

end Inquiry

end SecureReview
