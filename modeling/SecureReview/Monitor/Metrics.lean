import SecureReview.Json.Printer
import SecureReview.Number.Num
import SecureReview.Number.Whole
/-!
# Metrics

Counters, gauges and histograms. A metric has one value for each set of labels that was ever touched,
and is read out as a list of samples.
-/

namespace SecureReview

/-- Labels with their values. -/
abbrev Labels := List (String × String)

/-- The values of a metric by labels, in the order in which the labels were first touched. -/
abbrev Series (α : Type) := List (Labels × α)

namespace Series

variable {α : Type}

/-- The value for some labels. -/
def get? (s : Series α) (ls : Labels) : Option α :=
  s.lookup ls

/-- Change the value for some labels; untouched labels have the value `zero`. -/
def update (zero : α) (f : α → α) (ls : Labels) : Series α → Series α
  | [] => [(ls, f zero)]
  | e :: es => if e.1 == ls then (ls, f e.2) :: es else e :: update zero f ls es

end Series

/-- One value that is read out. -/
structure Sample where
  name : String
  labels : Labels
  value : Float

namespace Sample

/-- The labels as an object. -/
def labelsJson (ls : Labels) : Json :=
  .obj (ls.map (fun l => (l.1, .str l.2)))

/-- The text by which samples of one name are sorted. -/
def key (s : Sample) : String :=
  (Json.sortKeys (labelsJson s.labels)).compact

/-- Samples are sorted by name, then by labels. -/
def le (a b : Sample) : Bool :=
  a.name < b.name || a.name == b.name && !decide (b.key < a.key)

/-- The sample as a value. -/
def toJson (s : Sample) : Json :=
  .arr [.str s.name, labelsJson s.labels, .float s.value]

end Sample

/-! ## Histograms -/

/-- The upper bounds of the buckets, with their names. The last bucket has none. -/
def Histogram.bounds : List (String × Float) :=
  [("0.005", 0.005), ("0.01", 0.01), ("0.025", 0.025), ("0.05", 0.05), ("0.075", 0.075), ("0.1", 0.1),
   ("0.25", 0.25), ("0.5", 0.5), ("0.75", 0.75), ("1.0", 1.0), ("2.5", 2.5), ("5.0", 5.0),
   ("7.5", 7.5), ("10.0", 10.0), ("+Inf", Number.infinity)]

/-- A histogram: the sum of what was observed, and how many observations fell into each bucket. -/
structure Histogram where
  sum : Float := 0.0
  counts : List Nat := Histogram.bounds.map (fun _ => 0)
  length_counts : counts.length = Histogram.bounds.length := by simp

namespace Histogram

/-- Count an observation in the first bucket that holds it. -/
def place (x : Float) : List (String × Float) → List Nat → List Nat
  | b :: bs, n :: ns => if x ≤ b.2 then (n + 1) :: ns else n :: place x bs ns
  | _, ns => ns

theorem length_place (x : Float) (bs : List (String × Float)) (ns : List Nat) :
    (place x bs ns).length = ns.length := by
  fun_induction place x bs ns <;> simp [*]

/-- Add an observation. -/
def observe (h : Histogram) (x : Float) : Histogram where
  sum := h.sum + x
  counts := place x bounds h.counts
  length_counts := (length_place x bounds h.counts).trans h.length_counts

/-- The number of observations. -/
def count (h : Histogram) : Nat :=
  Number.total h.counts

/-- The numbers of observations up to each bound, given how many came before. -/
def cumulative : Nat → List Nat → List Nat
  | _, [] => []
  | before, n :: ns => (before + n) :: cumulative (before + n) ns

/-- The samples of a histogram. -/
def samples (name : String) (ls : Labels) (h : Histogram) : List Sample :=
  ((bounds.map (·.1)).zip (cumulative 0 h.counts)).map
      (fun b => ⟨name ++ "_bucket", ls ++ [("le", b.1)], Float.ofNat b.2⟩) ++
    [⟨name ++ "_count", ls, Float.ofNat h.count⟩, ⟨name ++ "_sum", ls, h.sum⟩]

end Histogram

/-- The samples of a series of counts. -/
def Series.countSamples (name : String) (s : Series Nat) : List Sample :=
  s.map (fun e => ⟨name, e.1, Float.ofNat e.2⟩)

/-- The samples of a series of amounts. -/
def Series.amountSamples (name : String) (s : Series Float) : List Sample :=
  s.map (fun e => ⟨name, e.1, e.2⟩)

/-- The samples of a series of histograms. -/
def Series.histogramSamples (name : String) (s : Series Histogram) : List Sample :=
  s.flatMap (fun e => e.2.samples name e.1)

end SecureReview
