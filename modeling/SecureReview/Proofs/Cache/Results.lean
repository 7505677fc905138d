import SecureReview.Cache.Results
import SecureReview.Proofs.Json.Reading
import SecureReview.Proofs.Store.Entries
/-!
# Kept results are found again

A value is kept as its text on one line, and that text reads back as the
value (`parse_render`). So what was kept under a key is what the next look
at that key finds, **whatever the store held before**.
-/

namespace SecureReview

variable {v : Json} {s : Store} {k : String}

namespace Json

theorem compact_ne_empty (v : Json) : v.compact ≠ "" := by
  intro h
  obtain ⟨u, t, token, hrender, htoken, -⟩ := exists_first_token Layout.line 0 v ends_nil
  rw [Layout.write_line] at hrender
  have hnil : render v = [] := by simpa [compact] using congrArg String.toList h
  rw [hrender, List.append_eq_nil_iff] at hnil
  exact htoken.nonempty hnil.1

/-- **The text of a value is read as the value.** -/
theorem read_compact (h : v.distinctKeys = true) : Json.read v.compact = .ok v := by
  rw [Json.read, parseString_compact h]

end Json

namespace ResultCache

variable {c : ResultCache}

/-- What a look shows of the text under a key. An empty text counts as nothing. -/
def shown (text : Option String) : Option Json :=
  text.bind fun t => if t == "" then none else (Json.read t).toOption

/-- The text of a value is shown as the value. -/
theorem shown_compact (hv : v.distinctKeys = true) : shown (some v.compact) = some v := by
  have hne : (v.compact == "") = false := by simpa using Json.compact_ne_empty v
  simp only [shown, Option.bind_some, hne, Json.read_compact hv]
  rfl

/-- **A look shows the text under the key**, and nothing else matters. -/
theorem lookUp_eq (hstore : c.store = some s) (hup : s.isDown = false) (k : String) :
    c.lookUp (.ok k) = shown (s.texts.lookup k) := by
  simp only [lookUp, hstore, bind, Except.bind, read, Store.get_eq hup]
  cases s.texts.lookup k with
  | none => rfl
  | some text =>
    by_cases hempty : text = ""
    · simp [shown, hempty, pure, Except.pure]
    · cases hread : Json.read text <;> simp [shown, hempty, hread, pure, Except.pure, Except.toOption]

theorem store_save (hstore : c.store = some s) (hup : s.isDown = false) (k : String) (ttl v : Json) :
    (c.save (.ok k) ttl v).store = some { s with
      texts := Store.put k v.compact s.texts
      expiries := Store.put k ttl s.expiries } := by
  simp only [save, hstore, bind, Except.bind, Store.set_eq hup]
  rfl

/-- A value that was kept under a key is found under it. -/
theorem lookUp_save (hstore : c.store = some s) (hup : s.isDown = false)
    (hv : v.distinctKeys = true) (k : String) (ttl : Json) :
    (c.save (.ok k) ttl v).lookUp (.ok k) = some v := by
  rw [lookUp_eq (store_save hstore hup k ttl v) hup, Store.lookup_put_self, shown_compact hv]

/-- **Under another key** nothing changed. -/
theorem lookUp_save_of_ne (hstore : c.store = some s) (hup : s.isDown = false) {k l : String}
    (h : l ≠ k) (ttl v : Json) : (c.save (.ok k) ttl v).lookUp (.ok l) = c.lookUp (.ok l) := by
  rw [lookUp_eq (store_save hstore hup k ttl v) hup, lookUp_eq hstore hup, Store.lookup_put_of_ne h]

/-! ## Keys -/

/-- The sixteen digits that stand for a text in its key. -/
def digest (text : String) : String :=
  Text.take (Sha256.hex (Sha256.hash (Text.encodeUtf8 text))) 16

theorem toList_key (sort text : String) :
    (key sort text).toList = sort.toList ++ ':' :: (digest text).toList := by
  simp only [key, String.toList_append]
  exact List.append_assoc sort.toList [':'] (digest text).toList

/-- Keys of one sort are told apart by their digits. -/
theorem key_eq_iff {sort t u : String} : key sort t = key sort u ↔ digest t = digest u := by
  rw [← String.toList_inj, toList_key, toList_key, List.append_cancel_left_eq, List.cons.injEq,
    String.toList_inj, and_iff_right rfl]

theorem scanKey_str (path hash : String) :
    scanKey (.str path) (.str hash) = key "scan" (path ++ ":" ++ hash) :=
  rfl

/-- A cache with an empty store. -/
def fresh : ResultCache where
  store := some {}

/-! ## Kept and found -/

theorem verdictKey_obj (code : Json) (finding : Fields) :
    ∃ k, verdictKey code (.obj finding) = .ok k :=
  ⟨_, rfl⟩

/-- **Kept results are found again.** Whatever the reachable store held,
a verdict kept for code under the rule of a finding, and the scan results
kept for a file with a certain content, each for some time, are what the next
look finds: the same value, with the fields of its objects in the same order. -/
theorem getVerdict_setVerdict_getScan_setScan (hstore : c.store = some s) (hup : s.isDown = false)
    (hv : v.distinctKeys = true) (code : Json) (finding : Fields) (path hash : Json) (ttl : ℕ+) :
    (c.setVerdict code (.obj finding) v (.int ttl)).getVerdict code (.obj finding) = some v ∧
      (c.setScan path hash v (.int ttl)).getScan path hash = some v := by
  constructor
  · obtain ⟨k, hk⟩ := verdictKey_obj code finding
    rw [setVerdict, getVerdict, hk]
    exact lookUp_save hstore hup hv k (.int ttl)
  · exact lookUp_save hstore hup hv (scanKey path hash) (.int ttl)

/-- A verdict with escapes, a pair of code units and fields out of order
replaces what the store held. -/
theorem getVerdict_setVerdict_escaped :
    (Json.obj [("why", .str "\"é😀\n"), ("at", .arr [.int (-7), .null])]).distinctKeys = true ∧
    ((ResultCache.mk (some { texts := [("llm:e3afac14e1dbe640", "1")] }) (.obj [])).setVerdict
      (.str "eval(x)") (.obj [("rule_id", .str "B307")])
      (.obj [("why", .str "\"é😀\n"), ("at", .arr [.int (-7), .null])]) (.int 60)).getVerdict
      (.str "eval(x)") (.obj [("rule_id", .str "B307")]) =
        some (.obj [("why", .str "\"é😀\n"), ("at", .arr [.int (-7), .null])]) :=
  ⟨by decide, (getVerdict_setVerdict_getScan_setScan rfl rfl (by decide) _ _ .null .null 60).1⟩

end ResultCache

end SecureReview
