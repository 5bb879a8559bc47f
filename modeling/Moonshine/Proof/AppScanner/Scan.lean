import Moonshine.Impl.AppScanner.Scan

/-!
# Each application once

The set of keys is that of the applications kept so far (`Scan.Inv`), so the scan keeps the
first application of each key, in the order in which the scanners have found them, and a
scanner that fails takes nothing from the others. The boxart that is filled in afterwards
changes no ID.
-/

namespace Moonshine.Proof.Scan

open Moonshine.Impl.AppScanner

/-- None of its key is found before this place. -/
def isFirst (found : List ApplicationConfig) (a : ApplicationConfig × Nat) : Bool :=
  (found.take a.2).all fun b => dedupeKey b ≠ dedupeKey a.1

/-- The applications at the places where their key is found first. -/
def firsts (found : List ApplicationConfig) : List ApplicationConfig :=
  (found.zipIdx.filter (isFirst found)).map Prod.fst

theorem firsts_append_singleton (found : List ApplicationConfig) (application : ApplicationConfig) :
    firsts (found ++ [application]) = firsts found ++
      if ∀ b ∈ found, dedupeKey b ≠ dedupeKey application then [application] else [] := by
  have hbefore : found.zipIdx.filter (isFirst (found ++ [application])) = found.zipIdx.filter (isFirst found) :=
    List.filter_congr fun a ha => by
      rw [isFirst, isFirst, List.take_append_of_le_length (Nat.le_of_lt (List.snd_lt_of_mem_zipIdx ha))]
  have hlast : isFirst (found ++ [application]) (application, found.length) = true ↔
      ∀ b ∈ found, dedupeKey b ≠ dedupeKey application := by
    rw [isFirst, List.take_left]
    simp
  rw [firsts, List.zipIdx_append, List.filter_append, List.map_append, Nat.zero_add, hbefore, firsts]
  rw [List.zipIdx_singleton, List.filter_singleton]
  by_cases hnew : ∀ b ∈ found, dedupeKey b ≠ dedupeKey application
  · rw [if_pos hnew, hlast.mpr hnew]
    rfl
  · rw [if_neg hnew, Bool.eq_false_iff.mpr (mt hlast.mp hnew)]
    rfl

/-- What the scan has kept of the applications found so far. -/
structure Kept (found kept : List ApplicationConfig) : Prop where
  positions : kept = firsts found
  sublist : kept.Sublist found
  distinct : (kept.map dedupeKey).Nodup
  first : ∀ a ∈ found, ∃ b ∈ kept, found.find? (fun c => dedupeKey c = dedupeKey a) = some b

structure Inv (found : List ApplicationConfig) (s : Scan) : Prop where
  keys : ∀ key, key ∈ s.dedupeKeys ↔ key ∈ s.applications.map dedupeKey
  kept : Kept found s.applications

variable {found : List ApplicationConfig} {s : Scan}

theorem Inv.empty : Inv [] .empty where
  keys key := by simp [Scan.empty]
  kept := ⟨rfl, List.nil_sublist _, List.nodup_nil, nofun⟩

theorem exists_of_mem {kept : List ApplicationConfig} (h : kept.Sublist found) {key : List Char × List Char}
    (hkey : key ∈ kept.map dedupeKey) : ∃ a ∈ found, dedupeKey a = key :=
  let ⟨a, ha, hak⟩ := List.mem_map.mp hkey
  ⟨a, h.subset ha, hak⟩

/-- An application is kept if its key is new. -/
theorem Inv.push (h : Inv found s) (application : ApplicationConfig) :
    Inv (found ++ [application]) (s.push application) := by
  have hfind : ∀ a b, found.find? (fun c => dedupeKey c = dedupeKey a) = some b →
      (found ++ [application]).find? (fun c => dedupeKey c = dedupeKey a) = some b := fun a b hb => by
    rw [List.find?_append, hb, Option.some_or]
  unfold Scan.push
  split
  next hseen =>
    refine ⟨h.keys, ?_, h.kept.sublist.trans (List.sublist_append_left _ _), h.kept.distinct, fun a ha => ?_⟩
    · obtain ⟨c, hc, hkey⟩ := exists_of_mem h.kept.sublist ((h.keys _).mp hseen)
      rw [firsts_append_singleton, if_neg fun hnew => hnew c hc hkey, List.append_nil]
      exact h.kept.positions
    rcases List.mem_append.mp ha with ha | ha
    · obtain ⟨b, hb, hfirst⟩ := h.kept.first a ha
      exact ⟨b, hb, hfind a b hfirst⟩
    · rw [List.mem_singleton.mp ha]
      obtain ⟨c, hc, hkey⟩ := exists_of_mem h.kept.sublist ((h.keys _).mp hseen)
      obtain ⟨b, hb, hfirst⟩ := h.kept.first c hc
      exact ⟨b, hb, hkey ▸ hfind c b hfirst⟩
  next hnew =>
    have hfresh : dedupeKey application ∉ s.applications.map dedupeKey := fun hmem => hnew ((h.keys _).mpr hmem)
    have hfound : ∀ c ∈ found, dedupeKey c ≠ dedupeKey application := fun c hc hkey => by
      obtain ⟨b, hb, hfirst⟩ := h.kept.first c hc
      have hbkey : dedupeKey b = dedupeKey c := by simpa using List.find?_some hfirst
      exact hfresh (List.mem_map.mpr ⟨b, hb, hbkey.trans hkey⟩)
    refine ⟨fun key => ?_, ?_, h.kept.sublist.append (.refl _), ?_, fun a ha => ?_⟩
    · rw [Finset.mem_insert, h.keys, List.map_append, List.mem_append, List.map_singleton, List.mem_singleton, or_comm]
    · rw [firsts_append_singleton, if_pos hfound, ← h.kept.positions]
    · rw [List.map_append, List.map_singleton]
      refine List.nodup_append.mpr ⟨h.kept.distinct, List.nodup_singleton _, fun key hkey key' hkey' heq => ?_⟩
      rw [List.mem_singleton] at hkey'
      exact hfresh (hkey' ▸ heq ▸ hkey)
    · rcases List.mem_append.mp ha with ha | ha
      · obtain ⟨b, hb, hfirst⟩ := h.kept.first a ha
        exact ⟨b, List.mem_append_left _ hb, hfind a b hfirst⟩
      · rw [List.mem_singleton.mp ha]
        refine ⟨application, List.mem_append_right _ List.mem_cons_self, ?_⟩
        have hnone : found.find? (fun c => dedupeKey c = dedupeKey application) = none :=
          List.find?_eq_none.mpr fun c hc hkey => hfound c hc (of_decide_eq_true hkey)
        rw [List.find?_append, hnone, Option.none_or]
        simp

theorem Inv.foldl (h : Inv found s) (applications : List ApplicationConfig) :
    Inv (found ++ applications) (applications.foldl Scan.push s) := by
  induction applications generalizing found s with
  | nil => rwa [List.append_nil]
  | cons application applications ih =>
    have hpush := ih (h.push application)
    rwa [List.append_assoc] at hpush

theorem Inv.scanner (h : Inv found s) (scanned : Option (List ApplicationConfig)) :
    Inv (found ++ scanned.getD []) (s.scanner scanned) := by
  cases scanned with
  | none => rwa [Option.getD_none, List.append_nil]
  | some applications => exact h.foldl applications

theorem Inv.run (h : Inv found s) (scanners : List (Option (List ApplicationConfig))) :
    Inv (found ++ scanners.flatMap (·.getD [])) (scanners.foldl Scan.scanner s) := by
  induction scanners generalizing found s with
  | nil => rwa [List.flatMap_nil, List.append_nil]
  | cons scanned scanners ih =>
    have hscanner := ih (h.scanner scanned)
    rwa [List.append_assoc] at hscanner

/-- The titles and commands that are listed are those of the configuration and, after them, the
first found of each key. -/
theorem scanned_once (findIconByName : List Char → Option String) (configured : List ApplicationConfig)
    (scanners : List (Option (List ApplicationConfig))) :
    ∃ kept, Kept (scanners.flatMap (·.getD [])) kept ∧
      (servedApplications findIconByName configured scanners).map (fun a => (a.title, a.command)) =
        (configured ++ kept).map fun a => (a.title, a.command) := by
  refine ⟨scanApplications scanners, (Inv.empty.run scanners).kept, ?_⟩
  rw [servedApplications, resolveMissingBoxart, List.map_map]
  refine List.map_congr_left fun a _ => ?_
  rw [Function.comp_apply]
  split <;> rfl

end Moonshine.Proof.Scan
