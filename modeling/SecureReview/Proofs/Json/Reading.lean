import SecureReview.Json.Parser
import SecureReview.Proofs.Json.Fields
import SecureReview.Proofs.Json.Layout
import SecureReview.Proofs.Json.Numerals
import SecureReview.Proofs.Json.Strings
/-!
# Written values read back

What is written for a value is one token (`IsToken`) or, for a container,
a sequence of them, and the reader takes it as the value **in front of any
text and inside any open containers** (`ReadsAs`). The proof follows the
value: items and fields come one after the other onto the frame that is
open. So a value whose objects have distinct keys is read back as itself
in every layout (`parse_write`), on one line (`parse_render`) as with one
item per line (`parseString_pretty`), and two such values that are written
alike are equal (`render_inj`). Values that compare as alike are equal, too
(`same_iff`).
-/

namespace SecureReview.Json

variable {u t rest : List Char} {c : Char} {token : Token} {v : Json} {pos n : ℕ}
variable {stack : List Frame}

/-! ## One token -/

theorem scanFrom_skip (pos : ℕ) (u t : List Char) :
    scanFrom u.length pos (u ++ t) = scanFrom 0 (pos + u.length) t := by
  induction u generalizing pos with
  | nil => rfl
  | cons c u ih =>
    calc scanFrom (u.length + 1) pos (c :: (u ++ t)) = scanFrom u.length (pos + 1) (u ++ t) := rfl
      _ = scanFrom 0 (pos + 1 + u.length) t := ih (pos + 1)
      _ = scanFrom 0 (pos + (u.length + 1)) t := by rw [Nat.add_right_comm, Nat.add_assoc]

/-- In front of `rest`, the text `u` is the token. -/
structure IsToken (u rest : List Char) (token : Token) : Prop where
  nonempty : u ≠ []
  noGap : ∀ c ∈ u.head?, isGap c = false
  first : ∀ pos, Token.first pos (u ++ rest) = (token, u.length)

theorem IsToken.scan (h : IsToken u rest token) (pos : ℕ) :
    scanFrom 0 pos (u ++ rest) = ⟨pos, token⟩ :: scanFrom 0 (pos + u.length) rest := by
  obtain ⟨hne, hgap, hfirst⟩ := h
  obtain ⟨c, t, rfl⟩ := List.exists_cons_of_ne_nil hne
  have hfirst := hfirst pos
  rw [List.cons_append] at hfirst ⊢
  rw [scanFrom, hgap c rfl, hfirst]
  simp only [Bool.false_eq_true, ↓reduceIte, List.length_cons, Nat.add_sub_cancel]
  rw [scanFrom_skip, Nat.add_right_comm, Nat.add_assoc]

/-- The tokens of one character. -/
def marks : List (Char × Token) :=
  [('[', .openArr), (']', .closeArr), ('\x7b', .openObj), ('\x7d', .closeObj), (',', .comma),
   (':', .colon)]

theorem isToken_mark (h : (c, token) ∈ marks) (rest : List Char) : IsToken [c] rest token := by
  simp only [marks, List.mem_cons, Prod.mk.injEq, List.not_mem_nil, or_false] at h
  rcases h with ⟨rfl, rfl⟩ | ⟨rfl, rfl⟩ | ⟨rfl, rfl⟩ | ⟨rfl, rfl⟩ | ⟨rfl, rfl⟩ | ⟨rfl, rfl⟩
  all_goals exact ⟨by simp, by simp [isGap], fun _ => rfl⟩

theorem isToken_renderString (s : String) (rest : List Char) :
    IsToken (renderString s) rest (.text s) where
  nonempty := by simp [renderString]
  noGap := by simp [renderString, isGap]
  first pos := by
    have hbody := stringBody_escaped pos (pos + 1) [] s.toList rest
    rw [List.reverse_nil, List.nil_append, String.ofList_toList] at hbody
    simp only [renderString, List.cons_append, List.append_assoc, List.nil_append, Token.first, hbody,
      List.length_cons, List.length_append, List.length_nil, Prod.mk.injEq, true_and]
    omega

/-- The number of a text, where it is neither a mark nor a string. -/
theorem first_of_plain (hc : c ∉ ['[', ']', '\x7b', '\x7d', ',', ':', '"']) (pos : ℕ) (t : List Char) :
    Token.first pos (c :: t) =
      match words.find? (fun w => w.1.toList.isPrefixOf (c :: t)) with
      | some (w, v) => (.scalar v, w.length)
      | none =>
        match number? (c :: t) with
        | some (v, n) => (.scalar v, n)
        | none => (.unknown, 1) := by
  simp only [List.mem_cons, List.not_mem_nil, or_false, not_or] at hc
  unfold Token.first
  split
  case h_8 => rfl
  all_goals simp_all

/-- **A word is a token.** -/
theorem isToken_word {w : String} (h : (w, v) ∈ words) (rest : List Char) :
    IsToken w.toList rest (.scalar v) := by
  simp only [words, List.mem_cons, Prod.mk.injEq, List.not_mem_nil, or_false] at h
  rcases h with ⟨rfl, rfl⟩ | ⟨rfl, rfl⟩ | ⟨rfl, rfl⟩ | ⟨rfl, rfl⟩ | ⟨rfl, rfl⟩ | ⟨rfl, rfl⟩
  all_goals exact ⟨by simp, by simp [isGap], fun _ => rfl⟩

theorem number?_eq_none (hc : c ≠ '-') (hdigit : c.isDigit = false) : number? (c :: t) = none := by
  have hsign : ∀ r, c :: t = '-' :: r → False := by
    intro r h
    exact hc (List.cons.inj h).1
  have hzero : ∀ r, c :: t = '0' :: r → False := by
    intro r h
    rw [(List.cons.inj h).1] at hdigit
    exact absurd hdigit (by decide)
  simp only [number?, leadingWhole, leadingDigits, List.takeWhile_cons, hdigit, Bool.false_eq_true,
    ↓reduceIte, List.isEmpty_nil]

/-- A number begins with a sign or a digit. -/
theorem head_of_number? {p : Json × ℕ} (h : number? (c :: t) = some p) :
    c = '-' ∨ c.isDigit = true := by
  by_contra hcon
  push Not at hcon
  rw [number?_eq_none hcon.1 (by simpa using hcon.2)] at h
  cases h

theorem number?_word {w : String × Json} (h : w ∈ words) (s : List Char) :
    number? (w.1.toList ++ s) = none := by
  simp only [words, List.mem_cons, List.not_mem_nil, or_false] at h
  rcases h with rfl | rfl | rfl | rfl | rfl | rfl <;> rfl

/-- A number is not taken for a word. -/
theorem find?_words_of_number? {p : Json × ℕ} (h : number? t = some p) :
    words.find? (fun w => w.1.toList.isPrefixOf t) = none := by
  rw [List.find?_eq_none]
  intro w hw hprefix
  obtain ⟨s, rfl⟩ := List.isPrefixOf_iff_prefix.1 hprefix
  rw [number?_word hw] at h
  cases h

/-- **A number is a token.** -/
theorem isToken_number (hne : u ≠ []) (h : number? (u ++ rest) = some (v, u.length)) :
    IsToken u rest (.scalar v) := by
  obtain ⟨c, t, rfl⟩ := List.exists_cons_of_ne_nil hne
  have hhead := head_of_number? h
  have hplain : ∀ d ∈ [' ', '\n', '\t', '\r', '[', ']', '\x7b', '\x7d', ',', ':', '"'], c ≠ d := by
    have hnone : ∀ d ∈ [' ', '\n', '\t', '\r', '[', ']', '\x7b', '\x7d', ',', ':', '"'],
        ¬ (d = '-' ∨ d.isDigit = true) := by
      simp only [List.forall_mem_cons, List.not_mem_nil, false_implies, implies_true]
      decide
    rintro d hd rfl
    exact hnone c hd hhead
  refine ⟨hne, ?_, ?_⟩
  · intro d hd
    obtain rfl := Option.some.inj hd
    simp [isGap, hplain]
  · intro pos
    rw [List.cons_append, first_of_plain (by simp [hplain]), ← List.cons_append, find?_words_of_number? h, h]

theorem ends_nil : Ends [] :=
  ⟨by simp [NoDigit], by simp, by simp⟩

/-- **The text of a double is a token**: a word where it is not finite. -/
theorem isToken_renderFloat (x : Float) (hrest : Ends rest) :
    IsToken (renderFloat x) rest (.scalar (.float x)) := by
  obtain rfl | ⟨negative, b, hb, rfl⟩ := Number.exists_signed x
  · simp only [renderFloat, Number.parts_nan]
    exact isToken_word (by simp [words]) rest
  obtain hlt | rfl := Nat.lt_or_eq_of_le hb
  · have hparts := @Number.parts_signed b negative hlt
    have hnumber := number?_floatText hparts hrest
    have hne : (Number.floatText (Number.signed negative b)).toList ≠ [] := by
      intro hnil
      have hread := number?_floatText hparts ends_nil
      rw [hnil] at hread
      cases hread
    simp only [renderFloat, hparts]
    exact isToken_number hne hnumber
  · simp only [renderFloat, Number.parts_infinite]
    cases negative with
    | true =>
      have hword : Number.signed true (2047 * 2 ^ 52) = -Number.infinity :=
        Number.toBits_injective (by decide +kernel)
      rw [hword]
      exact isToken_word (by simp [words]) rest
    | false => exact isToken_word (by simp [words, Number.infinity, Number.twoTo_eq]) rest

theorem isToken_renderInt (n : ℤ) (hrest : Ends rest) :
    IsToken (renderInt n) rest (.scalar (.int n)) := by
  have hne : renderInt n ≠ [] := by
    unfold renderInt
    split
    · simp
    · exact digits_ne_nil _
  exact isToken_number hne (number?_renderInt n hrest)

/-! ## Values -/

mutual

/-- No object in the value repeats a key. -/
def distinctKeys : Json → Bool
  | .arr xs => distinctKeysList xs
  | .obj fs => decide (fs.map Prod.fst).Nodup && distinctKeysFields fs
  | _ => true

/-- No object in the items repeats a key. -/
def distinctKeysList : List Json → Bool
  | [] => true
  | x :: xs => distinctKeys x && distinctKeysList xs

/-- No object in the values of the fields repeats a key. -/
def distinctKeysFields : List (String × Json) → Bool
  | [] => true
  | (_, v) :: fs => distinctKeys v && distinctKeysFields fs

end

theorem distinctKeysList_iff {xs : List Json} :
    distinctKeysList xs = true ↔ ∀ x ∈ xs, x.distinctKeys = true := by
  induction xs with
  | nil => simp [distinctKeysList]
  | cons x xs ih => simp [distinctKeysList, ih]

theorem distinctKeysFields_iff {fs : Fields} :
    distinctKeysFields fs = true ↔ ∀ f ∈ fs, f.2.distinctKeys = true := by
  induction fs with
  | nil => simp [distinctKeysFields]
  | cons f fs ih =>
    obtain ⟨k, v⟩ := f
    simp [distinctKeysFields, ih]

theorem distinctKeys_obj {fs : Fields} : (Json.obj fs).distinctKeys = true ↔
    (fs.map Prod.fst).Nodup ∧ ∀ f ∈ fs, f.2.distinctKeys = true := by
  rw [distinctKeys, Bool.and_eq_true, decide_eq_true_eq, distinctKeysFields_iff]

/-- In front of `rest`, the text `u` takes the reader from `r` to `r'`. -/
def Passes (r : Reader) (u rest : List Char) (r' : Reader) : Prop :=
  ∀ pos, Reader.run r (scanFrom 0 pos (u ++ rest)) = Reader.run r' (scanFrom 0 (pos + u.length) rest)

theorem Passes.append {r r' r'' : Reader} {w : List Char} (h : Passes r u (w ++ rest) r')
    (h' : Passes r' w rest r'') : Passes r (u ++ w) rest r'' := by
  intro pos
  rw [List.append_assoc, h pos, h' (pos + u.length), List.length_append, Nat.add_assoc]

theorem IsToken.passes {r r' : Reader} (h : IsToken u rest token)
    (hstep : ∀ pos, r.step ⟨pos, token⟩ = .ok r') : Passes r u rest r' := by
  intro pos
  rw [h.scan, Reader.run, hstep]

/-- The reader passes over blanks. -/
theorem passes_gaps (hu : ∀ c ∈ u, isGap c = true) (r : Reader) (rest : List Char) :
    Passes r u rest r := by
  intro pos
  induction u generalizing pos with
  | nil => rfl
  | cons c u ih =>
    rw [List.cons_append, scanFrom, if_pos (hu c List.mem_cons_self),
      ih (fun d hd => hu d (List.mem_cons_of_mem c hd)), List.length_cons, Nat.add_right_comm, Nat.add_assoc]

/-- In front of `rest`, the text `u` is read as the value, whatever
containers are open. -/
def ReadsAs (u rest : List Char) (v : Json) : Prop :=
  ∀ stack, Passes ⟨.value, stack⟩ u rest ⟨.after v, stack⟩

theorem IsToken.readsAs (h : IsToken u rest (.scalar v)) : ReadsAs u rest v :=
  fun _ => h.passes fun _ => rfl

theorem isToken_null (rest : List Char) : IsToken (render .null) rest (.scalar .null) :=
  isToken_word (by simp [words]) rest

theorem isToken_bool (b : Bool) (rest : List Char) :
    IsToken (render (.bool b)) rest (.scalar (.bool b)) := by
  cases b <;> exact isToken_word (by simp [words]) rest

/-- A comma, a closing bracket and a blank end a number. -/
theorem ends_cons (hc : c ∈ [',', ']', '\x7d', ' ', '\n', '\t', '\r']) (t : List Char) :
    Ends (c :: t) := by
  have hall : ∀ c ∈ [',', ']', '\x7d', ' ', '\n', '\t', '\r'],
      c.isDigit = false ∧ c ≠ '.' ∧ c ≠ 'e' ∧ c ≠ 'E' := by
    simp only [List.forall_mem_cons, List.not_mem_nil, false_implies, implies_true]
    decide
  obtain ⟨hdigit, hpoint, he, hE⟩ := hall c hc
  refine ⟨?_, by simpa using hpoint, by simpa using he, by simpa using hE⟩
  intro d hd
  obtain rfl := Option.some.inj hd
  exact hdigit

theorem ends_gaps (hu : ∀ c ∈ u, isGap c = true) (hrest : Ends rest) : Ends (u ++ rest) := by
  cases u with
  | nil => exact hrest
  | cons c u =>
    have hc := hu c List.mem_cons_self
    simp only [isGap, Bool.or_eq_true, beq_iff_eq] at hc
    refine ends_cons ?_ _
    simp only [List.mem_cons, List.not_mem_nil, or_false]
    tauto

theorem ends_writeItems (l : Layout) (level : ℕ) (xs : List Json) (rest : List Char) :
    Ends (l.writeItems level xs ++ rest) := by
  cases xs with
  | nil =>
    rw [Layout.writeItems, List.append_assoc]
    exact ends_gaps (l.isGap_closing level) (ends_cons (by simp) _)
  | cons x xs => exact ends_cons (by simp) _

theorem ends_writeFields (l : Layout) (level : ℕ) (fs : Fields) (rest : List Char) :
    Ends (l.writeFields level fs ++ rest) := by
  obtain _ | ⟨⟨k, v⟩, fs⟩ := fs
  · rw [Layout.writeFields, List.append_assoc]
    exact ends_gaps (l.isGap_closing level) (ends_cons (by simp) _)
  · exact ends_cons (by simp) _

/-- The first token of a written value begins a value. -/
theorem exists_first_token (l : Layout) (level : ℕ) (v : Json) (hrest : Ends rest) : ∃ u t token,
    l.write level v = u ++ t ∧ IsToken u (t ++ rest) token ∧ token ≠ .closeArr ∧ token ≠ .unknown := by
  have halone {u : List Char} {token : Token} (h : IsToken u rest token) (hclose : token ≠ .closeArr)
      (hunknown : token ≠ .unknown) : ∃ u' t token, u = u' ++ t ∧ IsToken u' (t ++ rest) token ∧
        token ≠ .closeArr ∧ token ≠ .unknown :=
    ⟨u, [], token, (List.append_nil u).symm, h, hclose, hunknown⟩
  cases v with
  | null => exact halone (isToken_null rest) nofun nofun
  | bool b => exact halone (isToken_bool b rest) nofun nofun
  | int n => exact halone (isToken_renderInt n hrest) nofun nofun
  | float x => exact halone (isToken_renderFloat x hrest) nofun nofun
  | str s => exact halone (isToken_renderString s rest) nofun nofun
  | arr xs =>
    cases xs <;> exact ⟨['['], _, .openArr, rfl, isToken_mark (by simp [marks]) _, nofun, nofun⟩
  | obj fs =>
    obtain _ | ⟨⟨k, v⟩, fs⟩ := fs <;>
      exact ⟨['\x7b'], _, .openObj, rfl, isToken_mark (by simp [marks]) _, nofun, nofun⟩

/-- A written value begins the first item of an array. -/
theorem run_valueOrClose {l : Layout} {level : ℕ} (v : Json) (hrest : Ends rest) (stack : List Frame)
    (pos : ℕ) : Reader.run ⟨.valueOrClose, stack⟩ (scanFrom 0 pos (l.write level v ++ rest)) =
      Reader.run ⟨.value, .arr [] :: stack⟩ (scanFrom 0 pos (l.write level v ++ rest)) := by
  obtain ⟨u, t, token, hwrite, htoken, hclose, -⟩ := exists_first_token l level v hrest
  have hstep : Reader.step ⟨.valueOrClose, stack⟩ ⟨pos, token⟩ =
      Reader.step ⟨.value, .arr [] :: stack⟩ ⟨pos, token⟩ := by
    cases token <;> first | rfl | contradiction
  rw [hwrite, List.append_assoc, htoken.scan, Reader.run, Reader.run, hstep]

theorem passes_mark {r r' : Reader} (token : Token) (h : (c, token) ∈ marks)
    (hstep : ∀ pos, r.step ⟨pos, token⟩ = .ok r') : Passes r [c] rest r' :=
  (isToken_mark h rest).passes hstep

/-- A key and what introduces its value. -/
theorem passes_key (l : Layout) {r : Reader} (fields : Fields) (key : String)
    (hstep : ∀ pos, r.step ⟨pos, .text key⟩ = .ok ⟨.colon fields key, stack⟩) :
    Passes r (renderString key ++ ':' :: l.colon) rest ⟨.value, .obj fields key :: stack⟩ := by
  have hcolon : Passes ⟨.colon fields key, stack⟩ [':'] (l.colon ++ rest)
      ⟨.value, .obj fields key :: stack⟩ :=
    passes_mark .colon (by simp [marks]) fun _ => rfl
  have hgaps := passes_gaps l.isGap_colon ⟨.value, .obj fields key :: stack⟩ rest
  exact ((isToken_renderString key _).passes hstep).append (hcolon.append hgaps)

mutual

/-- **A written value is read as itself**, in front of any text that
cannot extend a number. -/
theorem readsAs_write (l : Layout) : ∀ (v : Json), v.distinctKeys = true → ∀ level rest, Ends rest →
    ReadsAs (l.write level v) rest v
  | .null, _, _, rest, _ => (isToken_null rest).readsAs
  | .bool b, _, _, rest, _ => (isToken_bool b rest).readsAs
  | .int n, _, _, _, hrest => (isToken_renderInt n hrest).readsAs
  | .float x, _, _, _, hrest => (isToken_renderFloat x hrest).readsAs
  | .str s, _, _, rest, _ => fun _ => (isToken_renderString s rest).passes fun _ => rfl
  | .arr [], _, _, rest, _ => by
    intro stack
    have hopen : Passes ⟨.value, stack⟩ ['['] ([']'] ++ rest) ⟨.valueOrClose, stack⟩ :=
      passes_mark .openArr (by simp [marks]) fun _ => rfl
    exact hopen.append (passes_mark .closeArr (by simp [marks]) fun _ => rfl)
  | .arr (x :: xs), h, level, rest, _ => by
    intro stack
    rw [distinctKeys, distinctKeysList, Bool.and_eq_true] at h
    have hends := ends_writeItems l level xs rest
    have hopen : Passes ⟨.value, stack⟩ ['[']
        ((l.opening level ++ (l.write (level + 1) x ++ l.writeItems level xs)) ++ rest)
        ⟨.valueOrClose, stack⟩ :=
      passes_mark .openArr (by simp [marks]) fun _ => rfl
    have hgaps := passes_gaps (l.isGap_opening level) ⟨.valueOrClose, stack⟩
      ((l.write (level + 1) x ++ l.writeItems level xs) ++ rest)
    have hfirst : Passes ⟨.valueOrClose, stack⟩ (l.write (level + 1) x) (l.writeItems level xs ++ rest)
        ⟨.after x, .arr [] :: stack⟩ := by
      intro pos
      rw [run_valueOrClose x hends]
      exact readsAs_write l x h.1 (level + 1) _ hends (.arr [] :: stack) pos
    have hitems := passes_writeItems l xs h.2 level rest [] x stack
    exact hopen.append (hgaps.append (hfirst.append hitems))
  | .obj [], _, _, rest, _ => by
    intro stack
    have hopen : Passes ⟨.value, stack⟩ ['\x7b'] (['\x7d'] ++ rest) ⟨.keyOrClose, stack⟩ :=
      passes_mark .openObj (by simp [marks]) fun _ => rfl
    exact hopen.append (passes_mark .closeObj (by simp [marks]) fun _ => rfl)
  | .obj ((k, v) :: fs), h, level, rest, _ => by
    intro stack
    rw [distinctKeys, distinctKeysFields, Bool.and_eq_true, Bool.and_eq_true, decide_eq_true_eq] at h
    have hopen : Passes ⟨.value, stack⟩ ['\x7b']
        ((l.opening level ++ ((renderString k ++ ':' :: l.colon) ++
          (l.write (level + 1) v ++ l.writeFields level fs))) ++ rest) ⟨.keyOrClose, stack⟩ :=
      passes_mark .openObj (by simp [marks]) fun _ => rfl
    have hgaps := passes_gaps (l.isGap_opening level) ⟨.keyOrClose, stack⟩
      (((renderString k ++ ':' :: l.colon) ++ (l.write (level + 1) v ++ l.writeFields level fs)) ++ rest)
    have hkey : Passes ⟨.keyOrClose, stack⟩ (renderString k ++ ':' :: l.colon)
        ((l.write (level + 1) v ++ l.writeFields level fs) ++ rest) ⟨.value, .obj [] k :: stack⟩ :=
      passes_key l [] k fun _ => rfl
    have hvalue := readsAs_write l v h.2.1 (level + 1) _ (ends_writeFields l level fs rest)
      (.obj [] k :: stack)
    have hfields := passes_writeFields l fs h.2.2 level rest [] k v stack
    have hput : Fields.putAll (Fields.put [] k v) fs = (k, v) :: fs :=
      @Fields.putAll_of_nodup [(k, v)] fs h.1
    rw [hput] at hfields
    simpa [Layout.write] using hopen.append (hgaps.append (hkey.append (hvalue.append hfields)))

theorem passes_writeItems (l : Layout) : ∀ (xs : List Json), distinctKeysList xs = true →
    ∀ level rest items v stack, Passes ⟨.after v, .arr items :: stack⟩ (l.writeItems level xs) rest
      ⟨.after (.arr ((v :: items).reverse ++ xs)), stack⟩
  | [], _, level, rest, items, v, stack => by
    rw [List.append_nil]
    have hgaps := passes_gaps (l.isGap_closing level) ⟨.after v, .arr items :: stack⟩ ([']'] ++ rest)
    exact hgaps.append (passes_mark .closeArr (by simp [marks]) fun _ => rfl)
  | x :: xs, h, level, rest, items, v, stack => by
    rw [distinctKeysList, Bool.and_eq_true] at h
    have hcomma : Passes ⟨.after v, .arr items :: stack⟩ [',']
        ((l.between level ++ (l.write (level + 1) x ++ l.writeItems level xs)) ++ rest)
        ⟨.value, .arr (v :: items) :: stack⟩ :=
      passes_mark .comma (by simp [marks]) fun _ => rfl
    have hgaps := passes_gaps (l.isGap_between level) ⟨.value, .arr (v :: items) :: stack⟩
      ((l.write (level + 1) x ++ l.writeItems level xs) ++ rest)
    have hitem := readsAs_write l x h.1 (level + 1) _ (ends_writeItems l level xs rest)
      (.arr (v :: items) :: stack)
    have hitems := passes_writeItems l xs h.2 level rest (v :: items) x stack
    have hall := hcomma.append (hgaps.append (hitem.append hitems))
    simpa [Layout.writeItems] using hall

theorem passes_writeFields (l : Layout) : ∀ (fs : Fields), distinctKeysFields fs = true →
    ∀ level rest fields key v stack,
      Passes ⟨.after v, .obj fields key :: stack⟩ (l.writeFields level fs) rest
        ⟨.after (.obj (Fields.putAll (Fields.put fields key v) fs)), stack⟩
  | [], _, level, rest, fields, key, v, stack => by
    have hgaps := passes_gaps (l.isGap_closing level) ⟨.after v, .obj fields key :: stack⟩
      (['\x7d'] ++ rest)
    exact hgaps.append (passes_mark .closeObj (by simp [marks]) fun _ => rfl)
  | (k, w) :: fs, h, level, rest, fields, key, v, stack => by
    rw [distinctKeysFields, Bool.and_eq_true] at h
    have hcomma : Passes ⟨.after v, .obj fields key :: stack⟩ [',']
        ((l.between level ++ ((renderString k ++ ':' :: l.colon) ++
          (l.write (level + 1) w ++ l.writeFields level fs))) ++ rest)
        ⟨.key (Fields.put fields key v), stack⟩ :=
      passes_mark .comma (by simp [marks]) fun _ => rfl
    have hgaps := passes_gaps (l.isGap_between level) ⟨.key (Fields.put fields key v), stack⟩
      (((renderString k ++ ':' :: l.colon) ++ (l.write (level + 1) w ++ l.writeFields level fs)) ++ rest)
    have hkey : Passes ⟨.key (Fields.put fields key v), stack⟩ (renderString k ++ ':' :: l.colon)
        ((l.write (level + 1) w ++ l.writeFields level fs) ++ rest)
        ⟨.value, .obj (Fields.put fields key v) k :: stack⟩ :=
      passes_key l (Fields.put fields key v) k fun _ => rfl
    have hvalue := readsAs_write l w h.1 (level + 1) _ (ends_writeFields l level fs rest)
      (.obj (Fields.put fields key v) k :: stack)
    have hfields := passes_writeFields l fs h.2 level rest (Fields.put fields key v) k w stack
    have hall := hcomma.append (hgaps.append (hkey.append (hvalue.append hfields)))
    simpa [Layout.writeFields, Fields.putAll] using hall

end

/-- A written value does not begin with a byte order mark. -/
theorem head?_write_ne (l : Layout) (level : ℕ) (v : Json) :
    (l.write level v).head? ≠ some (Char.ofNat 0xFEFF) := by
  obtain ⟨u, t, token, hwrite, htoken, -, hunknown⟩ := exists_first_token l level v ends_nil
  intro hhead
  obtain ⟨w, hw⟩ : ∃ w, l.write level v = Char.ofNat 0xFEFF :: w := by
    cases hv : l.write level v with
    | nil => simp [hv] at hhead
    | cons c w =>
      rw [hv, List.head?_cons, Option.some.injEq] at hhead
      exact ⟨w, by rw [hhead]⟩
  have hfirst := htoken.first 0
  have hnone : Token.first 0 (Char.ofNat 0xFEFF :: w) = (.unknown, 1) := rfl
  rw [List.append_nil, ← hwrite, hw, hnone] at hfirst
  exact hunknown (Prod.mk.inj hfirst).1.symm

/-- **What is written is read back**, in every layout. -/
theorem parse_write (l : Layout) (level : ℕ) (h : v.distinctKeys = true) :
    parse (l.write level v) = .ok v := by
  have hrun : Reader.run ⟨.value, []⟩ (scan (l.write level v)) = .ok ⟨.finished v, []⟩ := by
    have hread := readsAs_write l v h level [] ends_nil [] 0
    rw [List.append_nil] at hread
    exact hread
  unfold parse
  rw [if_neg (by simpa using head?_write_ne l level v), hrun]

theorem parse_render (h : v.distinctKeys = true) : parse (render v) = .ok v := by
  rw [← Layout.write_line v 0, parse_write Layout.line 0 h]

theorem parseString_compact (h : v.distinctKeys = true) : parseString v.compact = .ok v := by
  rw [parseString, compact, String.toList_ofList, parse_render h]

theorem parseString_pretty (h : v.distinctKeys = true) : parseString v.pretty = .ok v := by
  rw [parseString, pretty, String.toList_ofList, ← Layout.write_tree v 0, parse_write Layout.tree 0 h]

/-- **Values that are written alike are equal.** -/
theorem render_inj {v w : Json} (hv : v.distinctKeys = true) (hw : w.distinctKeys = true)
    (h : render v = render w) : v = w := by
  have hread := parse_render hv
  rw [h, parse_render hw] at hread
  exact (Except.ok.inj hread).symm

/-! ## Comparing values -/

mutual

/-- To be compared as alike is to be equal. -/
theorem same_iff : ∀ (v w : Json), v.same w = true ↔ v = w
  | .null, w => by cases w <;> simp [same]
  | .bool b, w => by cases w <;> simp [same]
  | .int n, w => by cases w <;> simp [same]
  | .float p, w => by cases w <;> simp [same, Number.toBits_injective.eq_iff]
  | .str s, w => by cases w <;> simp [same]
  | .arr xs, w => by
    cases w with
    | arr ys => rw [same, sameList_iff xs ys, arr.injEq]
    | _ => simp [same]
  | .obj fs, w => by
    cases w with
    | obj gs => rw [same, sameFields_iff fs gs, obj.injEq]
    | _ => simp [same]

theorem sameList_iff : ∀ (xs ys : List Json), sameList xs ys = true ↔ xs = ys
  | [], ys => by cases ys <;> simp [sameList]
  | x :: xs, ys => by
    cases ys with
    | nil => simp [sameList]
    | cons y ys => rw [sameList, Bool.and_eq_true, same_iff x y, sameList_iff xs ys, List.cons.injEq]

theorem sameFields_iff : ∀ (fs gs : Fields), sameFields fs gs = true ↔ fs = gs
  | [], gs => by cases gs <;> simp [sameFields]
  | (k, v) :: fs, gs => by
    cases gs with
    | nil => simp [sameFields]
    | cons g gs =>
      obtain ⟨l, w⟩ := g
      rw [sameFields, Bool.and_eq_true, Bool.and_eq_true, beq_iff_eq, same_iff v w, sameFields_iff fs gs,
        List.cons.injEq, Prod.mk.injEq]

end

end SecureReview.Json
