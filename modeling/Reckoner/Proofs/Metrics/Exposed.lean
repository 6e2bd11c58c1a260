import Mathlib.Data.List.Basic
import Mathlib.Data.List.Flatten
import Reckoner.Metrics.Exposition

/-!
# Lines that show counts

Every entry of a registry has lines that show its counts, in each of the families
(`mem_encode_of_mem`).  They are what is left when samples that depend on durations are left out, so
that registries with the same counts expose the same (`expose_congr`).
-/

namespace Reckoner.Metrics

/-! ## Samples that are not timed -/

/-- The samples of a family that say some counts. -/
def Family.counted (f : Family) (labels : Labels) (t : Tally) : List Sample :=
  (f.samples labels { tally := t }).filter (!·.timed)

/-- The lines that show the counts of some labels. -/
def tallyLines (labels : Labels) (t : Tally) : List String :=
  families.flatMap fun f => (f.counted labels t).map Sample.line

/-- All finite buckets are timed. -/
theorem filter_buckets (labels : Labels) (bounds : List Duration) (ns : List Nat) :
    (List.zipWith (Family.bucket labels) bounds ns).filter (!·.timed) = [] := by
  rw [List.filter_eq_nil_iff]
  intro s hs
  obtain ⟨i, hi, rfl⟩ := List.getElem_of_mem hs
  rw [List.getElem_zipWith]
  exact Bool.false_ne_true

/-- What a family shows without timed samples depends on the counts alone. -/
theorem filter_samples {f : Family} (hf : f ∈ families) (labels : Labels) (s : Series) :
    (f.samples labels s).filter (!·.timed) = f.counted labels s.tally := by
  simp only [families, List.mem_cons, List.not_mem_nil, or_false] at hf
  rcases hf with rfl | rfl | rfl
  · rfl
  · rfl
  · -- The buckets differ, but none of them is left.
    simp only [Family.counted, Family.timer, List.filter_append, filter_buckets]
    rfl

/-! ## Lines of a registry -/

theorem mem_linesOf {shown : Sample → Bool} {labels : Labels} {s : Series} {r : Registry}
    (h : (labels, s) ∈ r) {f : Family} (hf : f ∈ families) {sample : Sample}
    (hsample : sample ∈ f.samples labels s) (hshown : shown sample = true) :
    sample.line ∈ linesOf shown r := by
  have hnonempty : ¬r.isEmpty := by
    intro hempty
    rw [List.isEmpty_iff.mp hempty] at h
    cases h
  rw [linesOf, if_neg hnonempty]
  refine List.mem_flatMap.mpr ⟨f, hf, ?_⟩
  -- The two comments come first.
  refine List.mem_cons_of_mem _ (List.mem_cons_of_mem _ ?_)
  refine List.mem_flatMap.mpr ⟨(labels, s), h, ?_⟩
  exact List.mem_map_of_mem (List.mem_filter.mpr ⟨hsample, hshown⟩)

/-- The counts of every entry of a registry are shown. -/
theorem mem_encode_of_mem {labels : Labels} {s : Series} {r : Registry} (h : (labels, s) ∈ r)
    {line : String} (hline : line ∈ tallyLines labels s.tally) : line ∈ encode r := by
  obtain ⟨f, hf, hline⟩ := List.mem_flatMap.mp hline
  obtain ⟨sample, hsample, rfl⟩ := List.mem_map.mp hline
  rw [← filter_samples hf] at hsample
  exact mem_linesOf h hf (List.mem_filter.mp hsample).1 rfl

/-- The lines of a family without timed samples. -/
theorem lines_untimed {f : Family} (hf : f ∈ families) (r : Registry) :
    f.lines (!·.timed) r =
      ("# HELP " ++ f.name ++ " " ++ f.help) :: ("# TYPE " ++ f.name ++ " " ++ f.type) ::
        (r.map fun entry => (entry.1, entry.2.tally)).flatMap fun entry =>
          (f.counted entry.1 entry.2).map Sample.line := by
  simp only [Family.lines, filter_samples hf, List.flatMap_map]

/-- What is exposed without durations depends on the labels and their counts alone. -/
theorem expose_congr {r r' : Registry}
    (h : r.map (fun entry => (entry.1, entry.2.tally)) =
      r'.map fun entry => (entry.1, entry.2.tally)) : expose r = expose r' := by
  have hempty : r.isEmpty = r'.isEmpty := by
    rw [← List.isEmpty_map, h, List.isEmpty_map]
  have hfamilies : families.flatMap (·.lines (!·.timed) r) =
      families.flatMap (·.lines (!·.timed) r') := by
    apply List.flatMap_congr
    intro f hf
    rw [lines_untimed hf, lines_untimed hf, h]
  rw [expose, expose, linesOf, linesOf, hempty, hfamilies]

/-- The lines without durations are some of all the lines, in the same order. -/
theorem expose_sublist_encode (r : Registry) : (expose r).Sublist (encode r) := by
  unfold expose encode linesOf
  split
  · exact List.Sublist.refl _
  · apply List.Sublist.flatMap_right
    intro f _
    -- The comments are the same, and of each entry some samples are left.
    refine ((List.Sublist.flatMap_right _ ?_).cons_cons _).cons_cons _
    intro entry _
    apply List.Sublist.map
    rw [List.filter_eq_self.mpr fun _ _ => rfl]
    exact List.filter_sublist

end Reckoner.Metrics
