import Mathlib

/-! # The latest record

Records with the times at which they end, read at some time: the latest one is the last that has
ended.  A bound that holds from each record to the end of the next holds at every time between.
-/
namespace LatestRecord
open List

variable {ρ τ : Type} [LinearOrder τ] (ends : ρ → τ)

/-- At a time not before the first end, some record is the latest. -/
theorem exists_latest {first : ρ} {records : List ρ} {t : τ} (h : ends first ≤ t) :
    ∃ before latest after, first :: records = before ++ latest :: after ∧ ends latest ≤ t ∧
      ∀ next ∈ after.head?, t < ends next := by
  induction records generalizing first with
  | nil => exact ⟨[], first, [], rfl, h, by rintro _ ⟨⟩⟩
  | cons next records ih =>
    by_cases hnext : ends next ≤ t
    · obtain ⟨before, latest, after, hsplit, hlatest, hafter⟩ := ih hnext
      exact ⟨first :: before, latest, after, by rw [hsplit]; rfl, hlatest, hafter⟩
    · refine ⟨[], first, next :: records, rfl, h, ?_⟩
      rintro _ ⟨⟩
      exact not_le.mp hnext

/-- Of records that end one after the other, those that have ended are not after the latest. -/
theorem le_latest {before after : List ρ} {latest : ρ} {t : τ}
    (hordered : (before ++ latest :: after).Pairwise fun a b => ends a ≤ ends b)
    (hafter : ∀ next ∈ after.head?, t < ends next) {record : ρ}
    (hmem : record ∈ before ++ latest :: after) (hended : ends record ≤ t) :
    ends record ≤ ends latest := by
  obtain ⟨-, hlatest, hbefore⟩ := pairwise_append.mp hordered
  rcases mem_append.mp hmem with hmem | hmem
  · exact hbefore record hmem latest mem_cons_self
  · rcases mem_cons.mp hmem with rfl | hmem
    · exact le_refl _
    · cases after with
      | nil => cases hmem
      | cons next after =>
        have hnext : t < ends next := hafter next rfl
        have hle : ends next ≤ ends record := by
          rcases mem_cons.mp hmem with rfl | hmem
          · exact le_refl _
          · exact (pairwise_cons.mp (pairwise_cons.mp hlatest).2).1 record hmem
        exact absurd (hle.trans hended) (not_le.mpr hnext)

/-- **Between the ends**: what holds of a record up to its own end and up to the end of the next
holds of the latest record at any time. -/
theorem latest_bound (holds : ρ → τ → Prop) (hmono : ∀ r t t', t ≤ t' → holds r t' → holds r t)
    {before after : List ρ} {latest : ρ} {t : τ} (hown : holds latest (ends latest))
    (hchain : (before ++ latest :: after).IsChain fun a b => holds a (ends b))
    (hafter : ∀ next ∈ after.head?, t < ends next)
    (hlast : ∀ last ∈ (before ++ latest :: after).getLast?, t ≤ ends last) : holds latest t := by
  cases after with
  | nil =>
    refine hmono _ _ _ (hlast latest ?_) hown
    rw [getLast?_concat]
    rfl
  | cons next after =>
    have hnext : holds latest (ends next) := (isChain_cons_cons.mp (isChain_append.mp hchain).2.1).1
    exact hmono _ _ _ (hafter next rfl).le hnext

end LatestRecord
