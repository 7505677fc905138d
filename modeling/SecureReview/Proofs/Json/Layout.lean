import SecureReview.Json.Printer
import SecureReview.Json.Token
import Mathlib.Data.Nat.Notation
/-!
# Layouts

A value is written on one line or with one item per line. The two texts
have the same tokens and differ in the blanks between them. A layout says
where blanks stand, and a value is written in it by `write`. Both ways of
writing are layouts (`write_line`, `write_tree`), so **what holds in every
layout holds of both**.
-/

namespace SecureReview.Json

/-- Where blanks stand in a container: after its opening bracket, after a
comma and before its closing bracket, which depend on the level of
indentation of the line that the container begins on, and after a colon. -/
structure Layout where
  opening : ℕ → List Char
  between : ℕ → List Char
  closing : ℕ → List Char
  colon : List Char
  isGap_opening : ∀ level, ∀ c ∈ opening level, isGap c = true
  isGap_between : ∀ level, ∀ c ∈ between level, isGap c = true
  isGap_closing : ∀ level, ∀ c ∈ closing level, isGap c = true
  isGap_colon : ∀ c ∈ colon, isGap c = true

namespace Layout

variable {l : Layout} {level : ℕ}

mutual

/-- A value in a layout. -/
def write (l : Layout) (level : ℕ) : Json → List Char
  | .null => render .null
  | .bool b => render (.bool b)
  | .int n => renderInt n
  | .float x => renderFloat x
  | .str s => renderString s
  | .arr [] => ['[', ']']
  | .arr (x :: xs) => '[' :: (l.opening level ++ (write l (level + 1) x ++ writeItems l level xs))
  | .obj [] => ['\x7b', '\x7d']
  | .obj ((k, v) :: fs) => '\x7b' :: (l.opening level ++ (renderString k ++ ':' :: (l.colon ++
      (write l (level + 1) v ++ writeFields l level fs))))

/-- The items after the first of an array, and its end. -/
def writeItems (l : Layout) (level : ℕ) : List Json → List Char
  | [] => l.closing level ++ [']']
  | x :: xs => ',' :: (l.between level ++ (write l (level + 1) x ++ writeItems l level xs))

/-- The fields after the first of an object, and its end. -/
def writeFields (l : Layout) (level : ℕ) : List (String × Json) → List Char
  | [] => l.closing level ++ ['\x7d']
  | (k, v) :: fs => ',' :: (l.between level ++ (renderString k ++ ':' :: (l.colon ++
      (write l (level + 1) v ++ writeFields l level fs))))

end

/-! ## One line -/

/-- Everything on one line, with a blank after each comma and colon. -/
def line : Layout where
  opening _ := []
  between _ := [' ']
  closing _ := []
  colon := [' ']
  isGap_opening := by simp
  isGap_between := by simp [isGap]
  isGap_closing := by simp
  isGap_colon := by simp [isGap]

mutual

theorem write_line : ∀ (v : Json) (level : ℕ), line.write level v = render v
  | .null, _ => rfl
  | .bool _, _ => rfl
  | .int _, _ => rfl
  | .float _, _ => rfl
  | .str _, _ => rfl
  | .arr [], _ => rfl
  | .arr (x :: xs), level => by
    rw [write, render, write_line x, writeItems_line xs]
    rfl
  | .obj [], _ => rfl
  | .obj ((k, v) :: fs), level => by
    rw [write, render, write_line v, writeFields_line fs]
    rfl

theorem writeItems_line : ∀ (xs : List Json) (level : ℕ), line.writeItems level xs = renderItems xs
  | [], _ => rfl
  | x :: xs, level => by
    rw [writeItems, renderItems, write_line x, writeItems_line xs]
    rfl

theorem writeFields_line : ∀ (fs : Fields) (level : ℕ), line.writeFields level fs = renderFields fs
  | [], _ => rfl
  | (k, v) :: fs, level => by
    rw [writeFields, renderFields, write_line v, writeFields_line fs]
    rfl

end

/-- Everything on one line, without blanks. -/
def tight : Layout where
  opening _ := []
  between _ := []
  closing _ := []
  colon := []
  isGap_opening := by simp
  isGap_between := by simp
  isGap_closing := by simp
  isGap_colon := by simp

/-! ## One item per line -/

theorem isGap_newline (level : ℕ) : ∀ c ∈ newline level, isGap c = true := by
  intro c hc
  obtain rfl | hc := List.mem_cons.1 hc
  · rfl
  · rw [(List.mem_replicate.1 hc).2]
    rfl

/-- One item per line, each container two blanks further in. -/
def tree : Layout where
  opening level := newline (level + 1)
  between level := newline (level + 1)
  closing level := newline level
  colon := [' ']
  isGap_opening level := isGap_newline (level + 1)
  isGap_between level := isGap_newline (level + 1)
  isGap_closing := isGap_newline
  isGap_colon := by simp [isGap]

mutual

theorem write_tree : ∀ (v : Json) (level : ℕ), tree.write level v = renderIndented level v
  | .null, _ => rfl
  | .bool _, _ => rfl
  | .int _, _ => rfl
  | .float _, _ => rfl
  | .str _, _ => rfl
  | .arr [], _ => rfl
  | .arr (x :: xs), level => by
    rw [write, renderIndented, write_tree x, writeItems_tree xs]
    rfl
  | .obj [], _ => rfl
  | .obj ((k, v) :: fs), level => by
    rw [write, renderIndented, write_tree v, writeFields_tree fs]
    rfl

theorem writeItems_tree : ∀ (xs : List Json) (level : ℕ),
    tree.writeItems level xs = indentedItems level xs
  | [], _ => rfl
  | x :: xs, level => by
    rw [writeItems, indentedItems, write_tree x, writeItems_tree xs]
    rfl

theorem writeFields_tree : ∀ (fs : Fields) (level : ℕ),
    tree.writeFields level fs = indentedFields level fs
  | [], _ => rfl
  | (k, v) :: fs, level => by
    rw [writeFields, indentedFields, write_tree v, writeFields_tree fs]
    rfl

end

end Layout

end SecureReview.Json
