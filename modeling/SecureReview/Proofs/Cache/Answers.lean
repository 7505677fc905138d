import SecureReview.Proofs.Cache.Keys
import SecureReview.Proofs.Cache.Results
import SecureReview.Proofs.Number.Exact
/-!
# The cache of answers is a map

Calls of the cache are followed by a map from keys to answers (`remembered`):
a set puts the marked answer under its key, an invalidation takes one key
away, and clearing takes them all. One call does to the store what it does
to the map (`exists_store_after`), so after **any history of calls** a look
finds what the map holds (`get_afterAll`), and keys outside the cache's own
name space are as they were.
-/

namespace SecureReview

/-- An answer: an object without repeated keys. -/
structure Answer where
  fields : Fields
  distinct : (Json.obj fields).distinctKeys = true

namespace Answer

/-- The answer together with when and under which key it was kept. -/
def marked (a : Answer) (now : DateTime) (key : String) : Json :=
  .obj (Fields.putAll a.fields [("cached_at", .str now.iso), ("cache_key", .str key)])

theorem distinctKeys_put {fs : Fields} {k : String} {v : Json}
    (hfs : (Json.obj fs).distinctKeys = true) (hv : v.distinctKeys = true) :
    (Json.obj (Fields.put fs k v)).distinctKeys = true := by
  rw [Json.distinctKeys_obj] at hfs ⊢
  refine ⟨Fields.nodup_put hfs.1, fun f hf => ?_⟩
  obtain rfl | hf := Fields.mem_of_mem_put hf
  · exact hv
  · exact hfs.2 f hf

theorem distinctKeys_marked (a : Answer) (now : DateTime) (key : String) :
    (a.marked now key).distinctKeys = true :=
  distinctKeys_put (distinctKeys_put a.distinct rfl) rfl

end Answer

/-- A call of the cache of answers. -/
inductive AnswerCall where
  | set (i : Inquiry) (a : Answer) (now : DateTime)
  | get (i : Inquiry)
  | invalidate (i : Inquiry)
  | clear

/-- The keys of the cache. -/
def IsAnswerKey (k : String) : Prop :=
  "llm_cache:".toList <+: k.toList

instance (k : String) : Decidable (IsAnswerKey k) :=
  inferInstanceAs (Decidable (_ <+: _))

theorem Inquiry.isAnswerKey_key (i : Inquiry) : IsAnswerKey i.key := by
  simp [IsAnswerKey, Inquiry.key, List.append_assoc]

theorem ne_key_of_not_isAnswerKey {k : String} (h : ¬ IsAnswerKey k) (i : Inquiry) : k ≠ i.key := by
  rintro rfl
  exact h i.isAnswerKey_key

namespace AnswerCall

/-- What a call does to what is known under a key. -/
def effect (k : String) (known : Option Json) : AnswerCall → Option Json
  | .set i a now => if i.key = k then some (a.marked now k) else known
  | .get _ => known
  | .invalidate i => if i.key = k then none else known
  | .clear => none

/-- What is known under a key after a history of calls. -/
def remembered (k : String) (calls : List AnswerCall) : Option Json :=
  calls.foldl (effect k) none

/-- The call takes away what is known under the key. -/
def Forgets (k : String) : AnswerCall → Prop
  | .invalidate i => i.key = k
  | .clear => True
  | _ => False

/-- The call sets something under the key. -/
def Sets (k : String) : AnswerCall → Prop
  | .set i _ _ => i.key = k
  | _ => False

variable {k : String} {v : Json} {known : Option Json}

theorem remembered_concat (calls : List AnswerCall) (call : AnswerCall) :
    remembered k (calls ++ [call]) = effect k (remembered k calls) call :=
  List.foldl_concat ..

theorem effect_of_forgets {call : AnswerCall} (h : call.Forgets k) : effect k known call = none := by
  cases call with
  | invalidate i => exact if_pos h
  | clear => rfl
  | set | get => exact h.elim

theorem effect_of_not {call : AnswerCall} (hforgets : ¬ call.Forgets k) (hsets : ¬ call.Sets k) :
    effect k known call = known := by
  cases call with
  | set i a now => exact if_neg hsets
  | get i => rfl
  | invalidate i => exact if_neg hforgets
  | clear => exact absurd trivial hforgets

theorem distinctKeys_remembered {calls : List AnswerCall} (h : v ∈ remembered k calls) :
    v.distinctKeys = true := by
  induction calls using List.reverseRecOn with
  | nil => cases h
  | append_singleton calls call ih =>
    rw [remembered_concat] at h
    cases call with
    | set i a now =>
      rw [effect] at h
      split at h
      · obtain rfl := Option.some.inj h
        exact a.distinctKeys_marked now k
      · exact ih h
    | get i => exact ih h
    | invalidate i =>
      rw [effect] at h
      split at h
      · cases h
      · exact ih h
    | clear => cases h

/-- **What is known under a key is the last answer that was set under it**,
if nothing took it away since. -/
theorem remembered_eq_some_iff {calls : List AnswerCall} : remembered k calls = some v ↔
    ∃ before i a now later, calls = before ++ .set i a now :: later ∧ i.key = k ∧
      (∀ call ∈ later, ¬ call.Forgets k ∧ ¬ call.Sets k) ∧ v = a.marked now k := by
  constructor
  · intro h
    induction calls using List.reverseRecOn with
    | nil => cases h
    | append_singleton calls call ih =>
      rw [remembered_concat] at h
      by_cases hforgets : call.Forgets k
      · rw [effect_of_forgets hforgets] at h
        cases h
      by_cases hsets : call.Sets k
      · cases call with
        | set i a now =>
          have hkey : i.key = k := hsets
          rw [effect, if_pos hkey] at h
          exact ⟨calls, i, a, now, [], rfl, hkey, by simp, (Option.some.inj h).symm⟩
        | get | invalidate | clear => exact hsets.elim
      · rw [effect_of_not hforgets hsets] at h
        obtain ⟨before, i, a, now, later, rfl, hkey, hlater, hv⟩ := ih h
        refine ⟨before, i, a, now, later ++ [call], by simp, hkey, ?_, hv⟩
        intro call' hcall'
        obtain hcall' | hcall' := List.mem_append.1 hcall'
        · exact hlater call' hcall'
        · rw [List.mem_singleton.1 hcall']
          exact ⟨hforgets, hsets⟩
  · rintro ⟨before, i, a, now, later, rfl, rfl, hlater, rfl⟩
    induction later using List.reverseRecOn with
    | nil => simp [remembered, effect]
    | append_singleton later call ih =>
      have hcall := hlater call (by simp)
      have hall : before ++ .set i a now :: (later ++ [call]) =
          (before ++ .set i a now :: later) ++ [call] := by simp
      rw [hall, remembered_concat, effect_of_not hcall.1 hcall.2]
      exact ih fun call' hcall' => hlater call' (List.mem_append_left _ hcall')

theorem remembered_ne_none {before later : List AnswerCall} {i : Inquiry} {a : Answer} {now : DateTime}
    (hkey : i.key = k) (hlater : ∀ call ∈ later, ¬ call.Forgets k) :
    remembered k (before ++ .set i a now :: later) ≠ none := by
  induction later using List.reverseRecOn with
  | nil => simp [remembered, effect, hkey]
  | append_singleton later call ih =>
    have hall : before ++ .set i a now :: (later ++ [call]) =
        (before ++ .set i a now :: later) ++ [call] := by simp
    have hcall := hlater call (by simp)
    rw [hall, remembered_concat]
    by_cases hsets : call.Sets k
    · cases call with
      | set j b t =>
        have hset : j.key = k := hsets
        rw [effect, if_pos hset]
        exact Option.some_ne_none _
      | get | invalidate | clear => exact hsets.elim
    · rw [effect_of_not hcall hsets]
      exact ih fun call' hcall' => hlater call' (List.mem_append_left _ hcall')

/-- **Nothing is known under a key exactly if everything that was set
under it was taken away since.** -/
theorem remembered_eq_none_iff {calls : List AnswerCall} : remembered k calls = none ↔
    ∀ before i a now later, calls = before ++ .set i a now :: later → i.key = k →
      ∃ call ∈ later, call.Forgets k := by
  constructor
  · rintro h before i a now later rfl hkey
    by_contra hnone
    push Not at hnone
    exact remembered_ne_none hkey hnone h
  · intro h
    cases hremembered : remembered k calls with
    | none => rfl
    | some v =>
      obtain ⟨before, i, a, now, later, hcalls, hkey, hlater, -⟩ := remembered_eq_some_iff.1 hremembered
      obtain ⟨call, hmem, hforgets⟩ := h before i a now later hcalls hkey
      exact absurd hforgets (hlater call hmem).1

end AnswerCall

namespace AnswerCache

variable {c : AnswerCache} {s : Store}

/-- The cache after a call. -/
def after (c : AnswerCache) : AnswerCall → AnswerCache
  | .set i a now => c.set i.question (.obj a.fields) now
  | .get _ => c
  | .invalidate i => c.invalidate i.question
  | .clear => c.clear

/-- The cache after a history of calls. -/
def afterAll (c : AnswerCache) (calls : List AnswerCall) : AnswerCache :=
  calls.foldl after c

/-- The cache is in use and its store can be reached. -/
structure Live (c : AnswerCache) (s : Store) : Prop where
  enabled : c.enabled = true
  store : c.store = some s
  up : s.isDown = false

/-- Outside the keys of the cache the stores are the same. -/
structure SameElsewhere (s s' : Store) : Prop where
  texts : ∀ k, ¬ IsAnswerKey k → s'.texts.lookup k = s.texts.lookup k
  expiries : ∀ k, ¬ IsAnswerKey k → s'.expiries.lookup k = s.expiries.lookup k
  sorted : s'.sorted = s.sorted

theorem Live.active (h : Live c s) : c.active? = some s := by
  rw [active?, h.enabled, h.store]
  rfl

theorem set_eq (h : Live c s) (i : Inquiry) (a : Answer) (now : DateTime) :
    c.set i.question (.obj a.fields) now = { c with store := some { s with
      texts := Store.put i.key (a.marked now i.key).compact s.texts
      expiries := Store.put i.key (.int c.ttl) s.expiries } } := by
  have hmarked : marked (.obj a.fields) now i.key = .ok (a.marked now i.key) := rfl
  simp only [set, h.active, Inquiry.key_question, bind, Except.bind, hmarked, Store.set_eq h.up]
  rfl

theorem invalidate_eq (h : Live c s) (i : Inquiry) :
    c.invalidate i.question = { c with store := some { s with
      texts := s.texts.filter fun e => !([i.key].contains e.1)
      expiries := s.expiries.filter fun e => !([i.key].contains e.1) } } := by
  simp only [invalidate, h.active, Inquiry.key_question, bind, Except.bind, Store.delete_eq h.up]
  rfl

/-- The keys that are cleared. -/
def cleared (s : Store) : List String :=
  (s.texts.map (·.1)).filter fun k => Store.fits "llm_cache:*".toList k.toList

theorem mem_cleared {k : String} : k ∈ cleared s ↔ k ∈ s.texts.map (·.1) ∧ IsAnswerKey k := by
  have hfits : Store.fits ("llm_cache:".toList ++ ['*']) k.toList = true ↔ IsAnswerKey k :=
    Store.fits_append_star (by simp [Store.IsPlain]) k.toList
  have hpattern : "llm_cache:*".toList = "llm_cache:".toList ++ ['*'] := by rfl
  rw [cleared, List.mem_filter, hpattern, hfits]

theorem clear_eq (h : Live c s) : c.clear = { c with store := some { s with
    texts := s.texts.filter fun e => !(cleared s).contains e.1
    expiries := s.expiries.filter fun e => !(cleared s).contains e.1 } } := by
  simp only [clear, h.active, Store.keys_eq h.up, bind, Except.bind, Store.delete_eq h.up]
  rfl

/-- To delete keys of the cache changes nothing outside of it. -/
theorem sameElsewhere_filter (s : Store) {keep : String → Bool}
    (hkeep : ∀ k, ¬ IsAnswerKey k → keep k = true) :
    SameElsewhere s { s with
      texts := s.texts.filter fun e => keep e.1
      expiries := s.expiries.filter fun e => keep e.1 } := by
  refine ⟨fun k hk => ?_, fun k hk => ?_, rfl⟩
  · rw [Store.lookup_filter keep, if_pos (hkeep k hk)]
  · rw [Store.lookup_filter keep, if_pos (hkeep k hk)]

/-- **One call does to the store what it does to the map**, and leaves
everything else alone. -/
theorem exists_store_after (h : Live c s) (call : AnswerCall) : ∃ s', Live (c.after call) s' ∧
    SameElsewhere s s' ∧ ∀ k, IsAnswerKey k → ∀ known, s.texts.lookup k = known.map Json.compact →
      s'.texts.lookup k = (call.effect k known).map Json.compact := by
  cases call with
  | set i a now =>
    refine ⟨_, ⟨?_, congrArg AnswerCache.store (set_eq h i a now), h.up⟩, ⟨?_, ?_, rfl⟩, ?_⟩
    · rw [after, set_eq h]
      exact h.enabled
    · intro k hk
      exact Store.lookup_put_of_ne (ne_key_of_not_isAnswerKey hk i) _ _
    · intro k hk
      exact Store.lookup_put_of_ne (ne_key_of_not_isAnswerKey hk i) _ _
    · intro k _ known hknown
      rw [AnswerCall.effect]
      by_cases hkey : i.key = k
      · subst hkey
        simp
      · rw [if_neg hkey, ← hknown]
        exact Store.lookup_put_of_ne (Ne.symm hkey) _ _
  | get i => exact ⟨s, h, ⟨fun _ _ => rfl, fun _ _ => rfl, rfl⟩, fun _ _ _ hknown => hknown⟩
  | invalidate i =>
    have hkeep (k : String) (hk : ¬ IsAnswerKey k) : (!([i.key].contains k)) = true := by
      simpa using ne_key_of_not_isAnswerKey hk i
    refine ⟨_, ⟨?_, congrArg AnswerCache.store (invalidate_eq h i), h.up⟩,
      sameElsewhere_filter s hkeep, ?_⟩
    · rw [after, invalidate_eq h]
      exact h.enabled
    · intro k _ known hknown
      rw [Store.lookup_filter (fun k => !([i.key].contains k)), AnswerCall.effect, hknown]
      by_cases hkey : i.key = k
      · simp [hkey]
      · simp [hkey, Ne.symm hkey]
  | clear =>
    have hkeep (k : String) (hk : ¬ IsAnswerKey k) : (!(cleared s).contains k) = true := by
      simpa [mem_cleared] using fun _ _ => hk
    refine ⟨_, ⟨?_, congrArg AnswerCache.store (clear_eq h), h.up⟩,
      sameElsewhere_filter s hkeep, ?_⟩
    · rw [after, clear_eq h]
      exact h.enabled
    · intro k hk known _
      rw [Store.lookup_filter (fun k => !(cleared s).contains k), AnswerCall.effect, Option.map_none]
      split
      · next hkept =>
        -- a key that is not cleared has no text
        rw [List.lookup_eq_none_iff]
        intro e he
        rw [bne_iff_ne]
        rintro rfl
        have hmem : e.1 ∈ cleared s := mem_cleared.2 ⟨List.mem_map_of_mem he, hk⟩
        rw [List.contains_iff_mem.2 hmem] at hkept
        cases hkept
      · rfl

theorem exists_store_afterAll (h : Live c s) (calls : List AnswerCall) :
    ∃ s', Live (c.afterAll calls) s' ∧ SameElsewhere s s' ∧ ∀ k, IsAnswerKey k → ∀ known,
      s.texts.lookup k = known.map Json.compact →
        s'.texts.lookup k = (calls.foldl (AnswerCall.effect k) known).map Json.compact := by
  induction calls generalizing c s with
  | nil => exact ⟨s, h, ⟨fun _ _ => rfl, fun _ _ => rfl, rfl⟩, fun _ _ _ hknown => hknown⟩
  | cons call calls ih =>
    obtain ⟨s₁, hlive₁, hsame₁, hmap₁⟩ := exists_store_after h call
    obtain ⟨s₂, hlive₂, hsame₂, hmap₂⟩ := ih hlive₁
    refine ⟨s₂, hlive₂, ⟨?_, ?_, hsame₂.sorted.trans hsame₁.sorted⟩, ?_⟩
    · intro k hk
      rw [hsame₂.texts k hk, hsame₁.texts k hk]
    · intro k hk
      rw [hsame₂.expiries k hk, hsame₁.expiries k hk]
    · intro k hk known hknown
      exact hmap₂ k hk _ (hmap₁ k hk known hknown)

/-- What a look at a live cache finds. -/
theorem get_of_lookup (h : Live c s) (i : Inquiry) {known : Option Json}
    (hknown : s.texts.lookup i.key = known.map Json.compact)
    (hdistinct : ∀ v ∈ known, v.distinctKeys = true) : c.get i.question = known := by
  have hlookUp : lookUp s i.question = .ok known := by
    simp only [lookUp, Inquiry.key_question, bind, Except.bind, Store.get_eq h.up, hknown]
    cases known with
    | none => rfl
    | some v =>
      have hne : (v.compact == "") = false := by simpa using Json.compact_ne_empty v
      simp only [Option.map_some, hne, Json.read_compact (hdistinct v rfl)]
      rfl
  simp only [get, h.active, hlookUp]

/-- No text in the store is under a key of the cache. -/
def Fresh (s : Store) : Prop :=
  ∀ k, IsAnswerKey k → s.texts.lookup k = none

/-- **After any history of calls a look finds what the map holds.** -/
theorem get_afterAll (h : Live c s) (hfresh : Fresh s) (calls : List AnswerCall) (i : Inquiry) :
    (c.afterAll calls).get i.question = AnswerCall.remembered i.key calls := by
  obtain ⟨s', hlive, -, hmap⟩ := exists_store_afterAll h calls
  exact get_of_lookup hlive i (hmap i.key i.isAnswerKey_key none (hfresh i.key i.isAnswerKey_key))
    fun v hv => AnswerCall.distinctKeys_remembered hv

/-- A greeting at a temperature. -/
def greeting (t : Float) : Inquiry :=
  ⟨[⟨[("content", "hi"), ("role", "user")], by decide⟩], "gpt-4", t⟩

theorem sortedJson_greeting (t : Float) : (greeting t).sortedJson = .obj [
    ("messages", .arr [.obj [("content", .str "hi"), ("role", .str "user")]]),
    ("model", .str "gpt-4"), ("temperature", .float (greeting t).rounded)] := by
  have hsorted (m : Message) (hm : m.fields = [("content", "hi"), ("role", "user")]) :
      m.sorted = [("content", .str "hi"), ("role", .str "user")] := by
    rw [Message.sorted, hm, List.mergeSort_of_pairwise]
    · rfl
    · decide
  simp only [Inquiry.sortedJson, greeting, List.map_cons, List.map_nil, hsorted]

/-- The hashed text of a greeting at a temperature that rounds to one of
the zeros. -/
theorem bytes_greeting {t : Float} {negative : Bool}
    (ht : (greeting t).rounded = Number.signed negative 0) : (greeting t).bytes =
      ("\x7b\"messages\": [\x7b\"content\": \"hi\", \"role\": \"user\"\x7d], \"model\": \"gpt-4\", " ++
        "\"temperature\": " ++ (if negative then "-0.0" else "0.0") ++ "\x7d").toUTF8.data.toList := by
  rw [Inquiry.bytes, Inquiry.canonicalText, sortedJson_greeting, ht, Text.encodeUtf8_eq]
  congr 3
  cases negative <;> decide +kernel

end AnswerCache

end SecureReview
