import Mathlib.Data.List.Induction
import SecureReview.Proofs.Cache.Keys
import SecureReview.Proofs.Cache.Results
/-!
# What invalidating a file removes

Scan results are kept under the digits of a hash, and a file is invalidated
by a pattern made of its path. So the path is compared with **digits that it
has nothing to do with**: a file loses its results if its path, read as a
pattern, fits some part of their digits (`getScan_invalidateFile`), and so does
any other file. A path that asks for a character that is no digit, a dot or a
slash say, removes nothing at all (`not_mentions`); one whose brackets hold
digits removes what it should not.
-/

namespace SecureReview.ResultCache

variable {c : ResultCache} {s : Store} {path : String}

/-! ## Paths in digits -/

/-- The digits fit the path with a star on either side, all read as one pattern: a bracket of the
path that is not closed takes in the star after it. -/
def Mentions (path digits : String) : Prop :=
  Store.fits ('*' :: (path.toList ++ ['*'])) digits.toList = true

instance (path digits : String) : Decidable (Mentions path digits) :=
  inferInstanceAs (Decidable (_ = true))

/-- The pattern for a path. -/
def pathPattern (path : String) : String :=
  "scan:*" ++ path ++ "*"

/-- **The pattern for a path fits the keys that mention it.** -/
theorem fits_pathPattern {text : String} :
    Store.fits (pathPattern path).toList (key "scan" text).toList = true ↔
      Mentions path (digest text) := by
  have hpattern : (pathPattern path).toList = "scan:".toList ++ '*' :: (path.toList ++ ['*']) := by
    simp [pathPattern]
  have hkey : (key "scan" text).toList = "scan:".toList ++ (digest text).toList := by
    simp [toList_key]
  rw [hpattern, hkey, Store.fits_append_append (by simp [Store.IsPlain]), Mentions]

/-- The characters of digests. -/
def hexadecimal : List Char :=
  "0123456789abcdef".toList

theorem mem_hexadecimal {n : ℕ} (h : n < 16) : Text.hexDigit n ∈ hexadecimal := by
  revert n
  decide

theorem mem_digest {text : String} {x : Char} (h : x ∈ (digest text).toList) : x ∈ hexadecimal := by
  rw [digest, Text.take, String.toList_ofList] at h
  obtain ⟨n, hn, rfl⟩ := Sha256.exists_of_mem_hex (List.mem_of_mem_take h)
  exact mem_hexadecimal hn

/-- The path, read as a pattern, asks for a character that no digest has. -/
def AsksElse (path : String) : Prop :=
  ∃ cs, .one cs ∈ Store.keyParts (path.toList ++ ['*']) ∧ ∀ x ∈ hexadecimal, cs.has x = false

/-- **Digits mention no path that asks for another character.** -/
theorem not_mentions (h : AsksElse path) (text : String) : ¬ Mentions path (digest text) := by
  obtain ⟨cs, hcs, hnone⟩ := h
  intro hfits
  rw [Mentions, Store.fits, Store.keyParts_star] at hfits
  obtain ⟨x, hx, hhas⟩ := Store.exists_mem_of_hasParts hfits (List.mem_cons_of_mem _ hcs)
  exact Bool.false_ne_true ((hnone x (mem_digest hx)).symm.trans hhas)

/-- In a path without brackets and backslashes every other character asks for itself. -/
theorem asksElse_of_mem (hplain : ∀ x ∈ path.toList, x ≠ '[' ∧ x ≠ '\\') {x : Char}
    (hx : x ∈ path.toList) (hstar : x ≠ '*') (hmark : x ≠ '?') (hhex : x ∉ hexadecimal) :
    AsksElse path := by
  refine ⟨Store.single x, ?_, ?_⟩
  · exact Store.one_mem_keyParts hplain hx hstar hmark
  · intro y hy
    rw [Bool.eq_false_iff]
    exact fun hhas => hhex (Store.has_single.1 hhas ▸ hy)

/-! ## One invalidation -/

theorem store_invalidateFile (hstore : c.store = some s) (hup : s.isDown = false) (path : String) :
    (c.invalidateFile (.str path)).store = some { s with
      texts := s.texts.filter fun e => !((s.texts.map (·.1)).filter fun k =>
        Store.fits (pathPattern path).toList k.toList).contains e.1
      expiries := s.expiries.filter fun e => !((s.texts.map (·.1)).filter fun k =>
        Store.fits (pathPattern path).toList k.toList).contains e.1 } := by
  simp only [invalidateFile, hstore]
  change (c.keep (s.keys (pathPattern path) >>= s.delete)).store = _
  rw [Store.keys_eq hup]
  exact congrArg (fun r => (c.keep r).store) (Store.delete_eq hup _)

/-- A key that fits the pattern has no text any more, and other keys have theirs. -/
theorem lookUp_invalidateFile (hstore : c.store = some s) (hup : s.isDown = false) (path k : String) :
    (c.invalidateFile (.str path)).lookUp (.ok k) =
      if Store.fits (pathPattern path).toList k.toList then none else c.lookUp (.ok k) := by
  rw [lookUp_eq (store_invalidateFile hstore hup path) hup, lookUp_eq hstore hup,
    Store.lookup_filter fun l => !((s.texts.map (·.1)).filter fun k =>
      Store.fits (pathPattern path).toList k.toList).contains l]
  by_cases hfits : Store.fits (pathPattern path).toList k.toList = true
  · rw [if_pos hfits]
    split
    · next hkept =>
      -- the key fits and was not removed, so it was not there
      have hnot : k ∉ s.texts.map (·.1) := by simpa [hfits] using hkept
      have hnone : s.texts.lookup k = none := by
        rw [List.lookup_eq_none_iff]
        intro e he
        have hne : k ≠ e.1 := fun hk => hnot (hk ▸ List.mem_map_of_mem he)
        simpa using hne
      rw [hnone]
      rfl
    · rfl
  · rw [if_neg hfits, if_pos (by simp [hfits])]

/-- **What is found after an invalidation**: nothing where the digits mention the path, and
else what was found before. -/
theorem getScan_invalidateFile (hstore : c.store = some s) (hup : s.isDown = false)
    (path file hash : String) : (c.invalidateFile (.str path)).getScan (.str file) (.str hash) =
      if Mentions path (digest (file ++ ":" ++ hash)) then none
      else c.getScan (.str file) (.str hash) := by
  rw [getScan, getScan, scanKey_str, lookUp_invalidateFile hstore hup]
  by_cases hmentions : Mentions path (digest (file ++ ":" ++ hash))
  · rw [if_pos hmentions, if_pos (fits_pathPattern.2 hmentions)]
  · rw [if_neg hmentions, if_neg fun hfits => hmentions (fits_pathPattern.1 hfits)]

/-! ## Invalidation after any scans -/

/-- A call that keeps the results of a scan for some time: a list of values without repeated keys. -/
structure ScanCall where
  path : String
  hash : String
  results : List Json
  distinct : (Json.arr results).distinctKeys = true
  ttl : ℕ+ := 3600

/-- The digits under which the results are kept. -/
def ScanCall.digits (call : ScanCall) : String :=
  digest (call.path ++ ":" ++ call.hash)

/-- The cache after a call. -/
def afterScan (c : ResultCache) (call : ScanCall) : ResultCache :=
  c.setScan (.str call.path) (.str call.hash) (.arr call.results) (.int call.ttl)

/-- A fresh cache after some calls. -/
def afterScans (calls : List ScanCall) : ResultCache :=
  calls.foldl afterScan fresh

theorem afterScans_concat (calls : List ScanCall) (call : ScanCall) :
    afterScans (calls ++ [call]) = (afterScans calls).afterScan call :=
  List.foldl_concat ..

theorem exists_store_afterScans (calls : List ScanCall) :
    ∃ s, (afterScans calls).store = some s ∧ s.isDown = false := by
  induction calls using List.reverseRecOn with
  | nil => exact ⟨{}, rfl, rfl⟩
  | append_singleton calls call ih =>
    obtain ⟨s, hstore, hup⟩ := ih
    rw [afterScans_concat]
    exact ⟨_, store_save hstore hup _ _ _, hup⟩

/-- The results of a call are found under its digits, and other digits are not touched. -/
theorem getScan_afterScan (hstore : c.store = some s) (hup : s.isDown = false) (call : ScanCall)
    (file hash : String) : (c.afterScan call).getScan (.str file) (.str hash) =
      if digest (file ++ ":" ++ hash) = call.digits then some (.arr call.results)
      else c.getScan (.str file) (.str hash) := by
  have hkey : scanKey (.str file) (.str hash) = scanKey (.str call.path) (.str call.hash) ↔
      digest (file ++ ":" ++ hash) = call.digits := key_eq_iff
  rw [afterScan, setScan, getScan]
  by_cases hdigits : digest (file ++ ":" ++ hash) = call.digits
  · rw [if_pos hdigits, hkey.2 hdigits, lookUp_save hstore hup call.distinct]
  · rw [if_neg hdigits, lookUp_save_of_ne hstore hup fun h => hdigits (hkey.1 h)]
    rfl

/-- **Something is found where a call kept something under the same digits.** -/
theorem getScan_afterScans_ne_none {calls : List ScanCall} {file hash : String} :
    (afterScans calls).getScan (.str file) (.str hash) ≠ none ↔
      ∃ call ∈ calls, digest (file ++ ":" ++ hash) = call.digits := by
  induction calls using List.reverseRecOn with
  | nil => exact ⟨fun h => absurd rfl h, by simp⟩
  | append_singleton calls call ih =>
    obtain ⟨s, hstore, hup⟩ := exists_store_afterScans calls
    rw [afterScans_concat, getScan_afterScan hstore hup]
    by_cases hdigits : digest (file ++ ":" ++ hash) = call.digits
    · simp [hdigits]
    · rw [if_neg hdigits, ih]
      simp [hdigits]

/-- Invalidating a file takes away its own results, all of them, and no others. -/
def InvalidatesExactly (c : ResultCache) (path : String) : Prop :=
  (∀ hash, (c.invalidateFile (.str path)).getScan (.str path) (.str hash) = none) ∧
    ∀ file hash, file ≠ path →
      (c.invalidateFile (.str path)).getScan (.str file) (.str hash) =
        c.getScan (.str file) (.str hash)

variable {calls : List ScanCall} {call : ScanCall} {file hash : String}

theorem getScan_invalidateFile_afterScans (calls : List ScanCall) (path file hash : String) :
    ((afterScans calls).invalidateFile (.str path)).getScan (.str file) (.str hash) =
      if Mentions path (digest (file ++ ":" ++ hash)) then none
      else (afterScans calls).getScan (.str file) (.str hash) := by
  obtain ⟨s, hstore, hup⟩ := exists_store_afterScans calls
  exact getScan_invalidateFile hstore hup path file hash

/-- Where an invalidation is exact, the digits of the path's own results mention it, and no other
digits do. The file is given the results of the call, so its fate tells. -/
theorem InvalidatesExactly.eq_iff_mentions (h : (afterScans calls).InvalidatesExactly path)
    (hcall : call ∈ calls) (hdigits : digest (file ++ ":" ++ hash) = call.digits) :
    file = path ↔ Mentions path call.digits := by
  have hfound := getScan_afterScans_ne_none.2 ⟨call, hcall, hdigits⟩
  rw [← hdigits]
  constructor
  · rintro rfl
    by_contra hmentions
    have hnone := h.1 hash
    rw [getScan_invalidateFile_afterScans, if_neg hmentions] at hnone
    exact hfound hnone
  · intro hmentions
    by_contra hne
    have hsame := h.2 file hash hne
    rw [getScan_invalidateFile_afterScans, if_pos hmentions] at hsame
    exact hfound hsame.symm

/-- And where they do so, the invalidation is exact. -/
theorem invalidatesExactly_of_mentions
    (h : ∀ call ∈ calls, ∀ file hash, digest (file ++ ":" ++ hash) = call.digits →
      (file = path ↔ Mentions path call.digits)) : (afterScans calls).InvalidatesExactly path := by
  have hfate (file hash : String)
      (hfound : (afterScans calls).getScan (.str file) (.str hash) ≠ none) :
      file = path ↔ Mentions path (digest (file ++ ":" ++ hash)) := by
    obtain ⟨call, hcall, hdigits⟩ := getScan_afterScans_ne_none.1 hfound
    rw [h call hcall file hash hdigits, hdigits]
  constructor
  · intro hash
    rw [getScan_invalidateFile_afterScans]
    split
    · rfl
    · next hmentions =>
      by_contra hfound
      exact hmentions ((hfate path hash hfound).1 rfl)
  · intro file hash hne
    rw [getScan_invalidateFile_afterScans]
    split
    · next hmentions =>
      by_contra hfound
      exact hne ((hfate file hash fun h => hfound h.symm).2 hmentions)
    · rfl

/-- The results of one file. -/
def oneScan : ScanCall where
  path := "b.py"
  hash := "1"
  results := [.str "exec"]
  distinct := rfl

end SecureReview.ResultCache
