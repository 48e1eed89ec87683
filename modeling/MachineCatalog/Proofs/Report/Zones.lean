/-
# Machine types by zone are a stable sorted partition

What a grouping by zone has to be is said once (`Report.IsStablePartition`): its zones are those
of the machine types, each once and in increasing order, and the members of a zone are the
machine types in it, sorted by name, those of one name in the order in which they came.  Only
one grouping is like that, and it is the one that catalogs use (`isStablePartition_iff`).

Going through the machine types one by one, and putting each behind those of its zone that
came before it, leads to the same zones and members, in the order in which they come
(`gathers_gathered`).  Sorted, that is again the one grouping (`byZone_eq_gathered`).
-/

import MachineCatalog.Report.Zones
import Mathlib.Data.List.Induction
import Mathlib.Data.List.Nodup
import Mathlib.Data.List.Perm.Basic

namespace MachineCatalog
namespace Report

/-! ### The order of texts -/

section TextLe

variable {a b c : Text}

theorem textLe_iff : textLe a b = true ↔ ¬b < a := by simp [textLe]

theorem textLe_refl (a : Text) : textLe a a = true := textLe_iff.2 (List.lt_irrefl a)

theorem textLe_trans (hab : textLe a b = true) (hbc : textLe b c = true) : textLe a c = true := by
  rw [textLe_iff, List.not_lt] at *
  exact List.le_trans hab hbc

theorem textLe_total (a b : Text) : textLe a b = true ∨ textLe b a = true := by
  rw [textLe_iff, textLe_iff, List.not_lt, List.not_lt]
  exact List.le_total a b

theorem textLe_antisymm (hab : textLe a b = true) (hba : textLe b a = true) : a = b := by
  rw [textLe_iff, List.not_lt] at *
  exact List.le_antisymm hab hba

theorem lt_of_textLe_of_ne (hab : textLe a b = true) (hne : a ≠ b) : a < b :=
  (List.le_iff_lt_or_eq.1 (List.not_lt.1 (textLe_iff.1 hab))).resolve_right hne

theorem lt_of_lt_of_textLe (hab : a < b) (hbc : textLe b c = true) : a < c := by
  by_cases hne : b = c
  · exact hne ▸ hab
  · exact List.lt_trans hab (lt_of_textLe_of_ne hbc hne)

end TextLe

/-! ### Sorting by a key -/

section SortedBy

variable {α : Type} (key : α → Text)

/-- Members in the order of their keys; equal keys keep their order. -/
def sortedBy (xs : List α) : List α := xs.mergeSort fun a b => textLe (key a) (key b)

theorem keyLe_trans (a b c : α) (hab : textLe (key a) (key b) = true)
    (hbc : textLe (key b) (key c) = true) : textLe (key a) (key c) = true := textLe_trans hab hbc

theorem keyLe_total (a b : α) : (textLe (key a) (key b) || textLe (key b) (key a)) = true := by
  rw [Bool.or_eq_true]
  exact textLe_total (key a) (key b)

theorem sortedBy_perm (xs : List α) : (sortedBy key xs).Perm xs := List.mergeSort_perm xs _

theorem pairwise_sortedBy (xs : List α) :
    (sortedBy key xs).Pairwise fun a b => textLe (key a) (key b) = true :=
  List.pairwise_mergeSort (keyLe_trans key) (keyLe_total key) xs

/-- **Sorting is stable**: members of one key stay in their order. -/
theorem filter_sortedBy (xs : List α) (k : Text) :
    (sortedBy key xs).filter (key · = k) = xs.filter (key · = k) := by
  have hequal : (xs.filter (key · = k)).Pairwise fun a b => textLe (key a) (key b) = true := by
    refine List.pairwise_of_forall_mem_list fun a ha b hb => ?_
    have hka : key a = k := of_decide_eq_true (List.mem_filter.1 ha).2
    have hkb : key b = k := of_decide_eq_true (List.mem_filter.1 hb).2
    rw [hka, hkb]
    exact textLe_refl k
  have hsub : (xs.filter (key · = k)).Sublist (sortedBy key xs) :=
    List.sublist_mergeSort (keyLe_trans key) (keyLe_total key) hequal List.filter_sublist
  have hfilter := hsub.filter (key · = k)
  rw [List.filter_filter] at hfilter
  simp only [Bool.and_self] at hfilter
  exact (hfilter.eq_of_length ((sortedBy_perm key xs).filter _).length_eq.symm).symm

/-- **Two sorted lists are the same when their members of each key are.** -/
theorem eq_of_forall_filter_eq {xs ys : List α}
    (hx : xs.Pairwise fun a b => textLe (key a) (key b) = true)
    (hy : ys.Pairwise fun a b => textLe (key a) (key b) = true)
    (h : ∀ k, xs.filter (key · = k) = ys.filter (key · = k)) : xs = ys := by
  have hmem (z : α) : z ∈ xs ↔ z ∈ ys := by
    have hz := congrArg (z ∈ ·) (h (key z))
    simpa using hz
  induction xs generalizing ys with
  | nil =>
    cases ys with
    | nil => rfl
    | cons y ys => exact absurd ((hmem y).2 List.mem_cons_self) List.not_mem_nil
  | cons x xs ih =>
    cases ys with
    | nil => exact absurd ((hmem x).1 List.mem_cons_self) List.not_mem_nil
    | cons y ys =>
      have hle {z w : α} {zs : List α}
          (hz : (z :: zs).Pairwise fun a b => textLe (key a) (key b) = true)
          (hw : w ∈ z :: zs) : textLe (key z) (key w) = true := by
        rcases List.mem_cons.1 hw with rfl | hw
        · exact textLe_refl _
        · exact List.rel_of_pairwise_cons hz hw
      have hkey : key x = key y := textLe_antisymm (hle hx ((hmem y).2 List.mem_cons_self))
        (hle hy ((hmem x).1 List.mem_cons_self))
      have hhead := h (key x)
      rw [List.filter_cons_of_pos (by simp), List.filter_cons_of_pos (by simp [hkey])] at hhead
      obtain ⟨rfl, -⟩ := List.cons.inj hhead
      have htail (k : Text) : xs.filter (key · = k) = ys.filter (key · = k) := by
        have hk := h k
        rw [List.filter_cons, List.filter_cons] at hk
        split_ifs at hk
        · exact (List.cons.inj hk).2
        · exact hk
      have hmemTail (z : α) : z ∈ xs ↔ z ∈ ys := by
        have hz := congrArg (z ∈ ·) (htail (key z))
        simpa using hz
      rw [ih hx.of_cons hy.of_cons htail hmemTail]

end SortedBy

/-! ### The different texts in order -/

theorem loop_eraseRepsBy (kept : List Text) (a : Text) (texts : List Text) :
    List.eraseRepsBy.loop (· == ·) a texts kept =
      kept.reverse ++ List.eraseRepsBy.loop (· == ·) a texts [] := by
  induction texts generalizing kept a with
  | nil => simp [List.eraseRepsBy.loop]
  | cons b texts ih =>
    rw [List.eraseRepsBy.loop, List.eraseRepsBy.loop]
    cases a == b with
    | true => exact ih kept a
    | false =>
      show List.eraseRepsBy.loop _ b texts (a :: kept) =
        kept.reverse ++ List.eraseRepsBy.loop _ b texts [a]
      rw [ih (a :: kept) b, ih [a] b]
      simp

theorem eraseReps_cons_cons (a b : Text) (texts : List Text) :
    (a :: b :: texts).eraseReps =
      if a = b then (b :: texts).eraseReps else a :: (b :: texts).eraseReps := by
  show List.eraseRepsBy.loop (· == ·) a (b :: texts) [] = _
  rw [List.eraseRepsBy.loop]
  split_ifs with h
  · obtain rfl := h
    rw [beq_self_eq_true]
    rfl
  · rw [beq_false_of_ne h]
    exact loop_eraseRepsBy [a] b texts

theorem mem_eraseReps {t : Text} {texts : List Text} : t ∈ texts.eraseReps ↔ t ∈ texts := by
  induction texts with
  | nil => rfl
  | cons a texts ih =>
    cases texts with
    | nil => rfl
    | cons b texts =>
      rw [eraseReps_cons_cons]
      split_ifs with h
      · rw [ih, h]
        simp
      · rw [List.mem_cons, ih, ← List.mem_cons]

/-- Sorted texts without their repetitions increase. -/
theorem pairwise_eraseReps {texts : List Text} (h : texts.Pairwise fun a b => textLe a b = true) :
    texts.eraseReps.Pairwise (· < ·) := by
  induction texts with
  | nil => exact .nil
  | cons a texts ih =>
    cases texts with
    | nil => exact List.pairwise_singleton _ a
    | cons b texts =>
      rw [eraseReps_cons_cons]
      split_ifs with hab
      · exact ih h.of_cons
      · refine .cons (fun t ht => ?_) (ih h.of_cons)
        have hlt : a < b := lt_of_textLe_of_ne (List.rel_of_pairwise_cons h List.mem_cons_self) hab
        rcases List.mem_cons.1 (mem_eraseReps.1 ht) with rfl | ht
        · exact hlt
        · exact lt_of_lt_of_textLe hlt (List.rel_of_pairwise_cons h.of_cons ht)

theorem mem_distinctSorted {t : Text} {texts : List Text} :
    t ∈ distinctSorted texts ↔ t ∈ texts :=
  mem_eraseReps.trans (List.mergeSort_perm texts textLe).mem_iff

theorem pairwise_distinctSorted (texts : List Text) :
    (distinctSorted texts).Pairwise (· < ·) := pairwise_eraseReps (pairwise_sortedBy id texts)

theorem nodup_of_pairwise_lt {texts : List Text} (h : texts.Pairwise (· < ·)) : texts.Nodup := by
  refine h.imp fun {a b} hab => ?_
  rintro rfl
  exact List.lt_irrefl a hab

/-- Increasing texts are known from which texts they are. -/
theorem eq_of_forall_mem_iff {ss ts : List Text} (hs : ss.Pairwise (· < ·))
    (ht : ts.Pairwise (· < ·)) (h : ∀ t, t ∈ ss ↔ t ∈ ts) : ss = ts := by
  have hperm :=
    (List.perm_ext_iff_of_nodup (nodup_of_pairwise_lt hs) (nodup_of_pairwise_lt ht)).2 h
  exact hperm.eq_of_pairwise (fun a b _ _ hab hba => absurd hba (List.lt_asymm hab)) hs ht

/-! ### The partition -/

/-- The zones of the machine types, each once and in increasing order, with the machine types in
each of them, sorted by name and those of one name in their order. -/
structure IsStablePartition (ms : List MachineType) (zones : List (Text × List MachineType)) :
    Prop where
  increasing : (zones.map Prod.fst).Pairwise (· < ·)
  mem_iff : ∀ zone, zone ∈ zones.map Prod.fst ↔ ∃ m ∈ ms, zoneText m = zone
  perm : ∀ z ∈ zones, z.2.Perm (ms.filter (zoneText · = z.1))
  sorted : ∀ z ∈ zones, z.2.Pairwise fun a b => textLe a.name b.name = true
  stable : ∀ z ∈ zones, ∀ name, z.2.filter (·.name = name) =
    (ms.filter (zoneText · = z.1)).filter (·.name = name)

/-- The members of a zone as catalogs list them. -/
def membersOf (ms : List MachineType) (zone : Text) : List MachineType :=
  sortedBy MachineType.name (ms.filter (zoneText · = zone))

theorem byZone_eq (ms : List MachineType) :
    byZone ms = (distinctSorted (ms.map zoneText)).map fun zone => (zone, membersOf ms zone) := rfl

theorem map_fst_byZone (ms : List MachineType) :
    (byZone ms).map Prod.fst = distinctSorted (ms.map zoneText) := by
  rw [byZone_eq, List.map_map]
  exact List.map_id _

theorem mem_byZone {ms : List MachineType} {z : Text × List MachineType} (h : z ∈ byZone ms) :
    z.2 = membersOf ms z.1 := by
  obtain ⟨zone, -, rfl⟩ := List.mem_map.1 h
  rfl

/-- Whatever has the zones, and their members as catalogs list them, is a stable sorted
partition. -/
theorem isStablePartition_of_members {ms : List MachineType}
    {zones : List (Text × List MachineType)} (hincreasing : (zones.map Prod.fst).Pairwise (· < ·))
    (hmem : ∀ zone, zone ∈ zones.map Prod.fst ↔ ∃ m ∈ ms, zoneText m = zone)
    (hmembers : ∀ z ∈ zones, z.2 = membersOf ms z.1) : IsStablePartition ms zones where
  increasing := hincreasing
  mem_iff := hmem
  perm z hz := by
    rw [hmembers z hz]
    exact sortedBy_perm _ _
  sorted z hz := by
    rw [hmembers z hz]
    exact pairwise_sortedBy _ _
  stable z hz name := by
    rw [hmembers z hz]
    exact filter_sortedBy _ _ name

theorem isStablePartition_byZone (ms : List MachineType) : IsStablePartition ms (byZone ms) := by
  refine isStablePartition_of_members ?_ (fun zone => ?_) fun z hz => mem_byZone hz
  · rw [map_fst_byZone]
    exact pairwise_distinctSorted _
  · rw [map_fst_byZone, mem_distinctSorted, List.mem_map]

/-- **The grouping by zone is the only stable sorted partition.** -/
theorem isStablePartition_iff {ms : List MachineType} {zones : List (Text × List MachineType)} :
    IsStablePartition ms zones ↔ zones = byZone ms := by
  refine ⟨fun h => ?_, fun h => h ▸ isStablePartition_byZone ms⟩
  have hkeys : zones.map Prod.fst = distinctSorted (ms.map zoneText) := by
    refine eq_of_forall_mem_iff h.increasing (pairwise_distinctSorted _) fun zone => ?_
    rw [h.mem_iff, mem_distinctSorted, List.mem_map]
  have hmembers : ∀ z ∈ zones, (z.1, membersOf ms z.1) = z := by
    intro z hz
    have hsame : membersOf ms z.1 = z.2 :=
      eq_of_forall_filter_eq MachineType.name (pairwise_sortedBy _ _) (h.sorted z hz) fun name =>
        (filter_sortedBy _ _ name).trans (h.stable z hz name).symm
    rw [hsame]
  rw [byZone_eq, ← hkeys, List.map_map]
  exact (List.map_id zones).symm.trans (List.map_congr_left hmembers).symm

/-- Cut by key and put together again, a list has the members that it had, when every key of a
member is among the keys. -/
theorem flatMap_filter_perm {α : Type} (key : α → Text) {keys : List Text} (h : keys.Nodup)
    {xs : List α} (hxs : ∀ x ∈ xs, key x ∈ keys) :
    (keys.flatMap fun k => xs.filter (key · = k)).Perm xs := by
  induction keys generalizing xs with
  | nil =>
    obtain rfl := List.eq_nil_iff_forall_not_mem.2 fun x hx => List.not_mem_nil (hxs x hx)
    rfl
  | cons k keys ih =>
    rw [List.nodup_cons] at h
    have hothers : ∀ x ∈ xs.filter (fun x => !decide (key x = k)), key x ∈ keys := by
      intro x hx
      obtain ⟨hx, hne⟩ := List.mem_filter.1 hx
      exact List.mem_of_ne_of_mem (by simpa using hne) (hxs x hx)
    have hrest : (keys.flatMap fun j => xs.filter (key · = j)) =
        keys.flatMap fun j => (xs.filter fun x => !decide (key x = k)).filter (key · = j) := by
      refine List.flatMap_congr fun j hj => ?_
      rw [List.filter_filter]
      refine List.filter_congr fun x _ => ?_
      by_cases hx : key x = j
      · have hne : j ≠ k := fun he => h.1 (he ▸ hj)
        simp [hx, hne]
      · simp [hx]
    rw [List.flatMap_cons, hrest]
    exact ((ih h.2 hothers).append_left _).trans (List.filter_append_perm _ xs)

section Partition

variable {ms : List MachineType} {zones : List (Text × List MachineType)}

/-- **No machine type is lost or doubled.** -/
theorem IsStablePartition.flatMap_perm (h : IsStablePartition ms zones) :
    (zones.flatMap Prod.snd).Perm ms := by
  have hall : ∀ m ∈ ms, zoneText m ∈ zones.map Prod.fst := fun m hm =>
    (h.mem_iff _).2 ⟨m, hm, rfl⟩
  have hnodup : (zones.map Prod.fst).Nodup := nodup_of_pairwise_lt h.increasing
  have hcut := flatMap_filter_perm zoneText hnodup hall
  rw [List.flatMap_map] at hcut
  exact (List.Perm.flatMap_left zones h.perm).trans hcut

theorem IsStablePartition.ne_nil (h : IsStablePartition ms zones) {z : Text × List MachineType}
    (hz : z ∈ zones) : z.2 ≠ [] := by
  obtain ⟨m, hm, hzone⟩ := (h.mem_iff z.1).1 (List.mem_map_of_mem hz)
  have hmem : m ∈ z.2 := (h.perm z hz).mem_iff.2 (List.mem_filter.2 ⟨hm, decide_eq_true hzone⟩)
  exact List.ne_nil_of_mem hmem

end Partition

/-! ### Going through the machine types -/

/-- The groups after one more machine type: it comes behind those of its zone, and a zone that is
new comes behind the others. -/
def gather (zones : List (Text × List MachineType)) (m : MachineType) :
    List (Text × List MachineType) :=
  if zoneText m ∈ zones.map Prod.fst then
    zones.map fun z => if z.1 = zoneText m then (z.1, z.2 ++ [m]) else z
  else zones ++ [(zoneText m, [m])]

/-- The groups after all machine types. -/
def gathered (ms : List MachineType) : List (Text × List MachineType) := ms.foldl gather []

/-- What holds of the groups after each machine type. -/
structure Gathers (ms : List MachineType) (zones : List (Text × List MachineType)) : Prop where
  nodup : (zones.map Prod.fst).Nodup
  mem_iff : ∀ zone, zone ∈ zones.map Prod.fst ↔ ∃ m ∈ ms, zoneText m = zone
  members : ∀ z ∈ zones, z.2 = ms.filter (zoneText · = z.1)

/-- One more machine type goes to its zone and nowhere else. -/
theorem Gathers.gather {ms : List MachineType} {zones : List (Text × List MachineType)}
    (h : Gathers ms zones) (m : MachineType) : Gathers (ms ++ [m]) (gather zones m) := by
  have hmem (zone : Text) : (∃ x ∈ ms ++ [m], zoneText x = zone) ↔
      zone ∈ zones.map Prod.fst ∨ zone = zoneText m := by
    rw [h.mem_iff]
    simp [or_and_right, exists_or, eq_comm]
  rw [Report.gather]
  split_ifs with hzone
  · have hkeys : (zones.map fun z => if z.1 = zoneText m then (z.1, z.2 ++ [m]) else z).map
        Prod.fst = zones.map Prod.fst := by
      rw [List.map_map]
      refine List.map_congr_left fun z _ => ?_
      rw [Function.comp_apply]
      split_ifs <;> rfl
    refine ⟨hkeys ▸ h.nodup, fun zone => ?_, fun z hz => ?_⟩
    · rw [hkeys, hmem, or_iff_left_of_imp]
      rintro rfl
      exact hzone
    · obtain ⟨y, hy, rfl⟩ := List.mem_map.1 hz
      rw [List.filter_append]
      split_ifs with hkey
      · rw [h.members y hy, List.filter_cons_of_pos (by simp [hkey]), List.filter_nil]
      · rw [h.members y hy, List.filter_cons_of_neg (by simp [Ne.symm hkey]), List.filter_nil,
          List.append_nil]
  · refine ⟨?_, fun zone => ?_, fun z hz => ?_⟩
    · rw [List.map_append, List.nodup_append]
      refine ⟨h.nodup, List.nodup_singleton _, fun zone hold new hnew => ?_⟩
      rintro rfl
      obtain rfl := List.mem_singleton.1 hnew
      exact hzone hold
    · rw [hmem, List.map_append]
      simp
    · rw [List.filter_append]
      rcases List.mem_append.1 hz with hz | hz
      · have hkey : zoneText m ≠ z.1 := by
          rintro hkey
          exact hzone (hkey ▸ List.mem_map_of_mem hz)
        rw [h.members z hz, List.filter_cons_of_neg (by simp [hkey]), List.filter_nil,
          List.append_nil]
      · obtain rfl := List.mem_singleton.1 hz
        have hnone : ms.filter (zoneText · = zoneText m) = [] := by
          rw [List.filter_eq_nil_iff]
          intro x hx hkey
          exact hzone ((h.mem_iff _).2 ⟨x, hx, of_decide_eq_true hkey⟩)
        rw [hnone, List.filter_cons_of_pos (by simp)]
        rfl

/-- **Going through the machine types gathers each in its zone.** -/
theorem gathers_gathered (ms : List MachineType) : Gathers ms (gathered ms) := by
  induction ms using List.reverseRecOn with
  | nil => exact ⟨List.nodup_nil, by simp [gathered], fun z hz => absurd hz List.not_mem_nil⟩
  | append_singleton ms m ih =>
    rw [gathered, List.foldl_append]
    exact ih.gather m

/-- **Sorted, the groups are those of catalogs.** -/
theorem byZone_eq_gathered (ms : List MachineType) :
    byZone ms =
      (sortedBy Prod.fst (gathered ms)).map fun z => (z.1, sortedBy MachineType.name z.2) := by
  have hgathers := gathers_gathered ms
  have hperm := sortedBy_perm Prod.fst (gathered ms)
  have hkeys : ((sortedBy Prod.fst (gathered ms)).map fun z =>
      (z.1, sortedBy MachineType.name z.2)).map Prod.fst =
        (sortedBy Prod.fst (gathered ms)).map Prod.fst := by
    rw [List.map_map]
    rfl
  refine (isStablePartition_iff.1 (isStablePartition_of_members ?_ (fun zone => ?_) ?_)).symm
  · have hnodup : ((sortedBy Prod.fst (gathered ms)).map Prod.fst).Nodup :=
      (hperm.map Prod.fst).nodup_iff.2 hgathers.nodup
    have hle : ((sortedBy Prod.fst (gathered ms)).map Prod.fst).Pairwise
        fun a b => textLe a b = true :=
      List.pairwise_map.2 (pairwise_sortedBy Prod.fst (gathered ms))
    rw [hkeys]
    exact (hle.and hnodup).imp fun {a b} hab => lt_of_textLe_of_ne hab.1 hab.2
  · rw [hkeys, (hperm.map Prod.fst).mem_iff, hgathers.mem_iff]
  · intro z hz
    obtain ⟨y, hy, rfl⟩ := List.mem_map.1 hz
    rw [hgathers.members y (hperm.mem_iff.1 hy)]
    rfl

/-- **The grouping by zone is a stable sorted partition.**  Its zones are the `project/zone` of the
machine types, each once and in increasing order; the members of a zone are the machine types
with it, sorted by name, those of one name in their order; and no other grouping is like that.
It is what going through the machine types one by one gathers, sorted.  Together the members are
the machine types again, and no zone is without members. -/
theorem byZone_partitions (ms : List MachineType) :
    (∀ zones, IsStablePartition ms zones ↔ zones = byZone ms) ∧
      byZone ms =
        (sortedBy Prod.fst (gathered ms)).map (fun z => (z.1, sortedBy MachineType.name z.2)) ∧
      ((byZone ms).flatMap Prod.snd).Perm ms ∧ ∀ z ∈ byZone ms, z.2 ≠ [] :=
  have hbyZone := isStablePartition_byZone ms
  ⟨fun _ => isStablePartition_iff, byZone_eq_gathered ms, hbyZone.flatMap_perm,
    fun _ => hbyZone.ne_nil⟩

/-- A machine type of the given zone, name and number of virtual CPUs. -/
def cpusIn (zone name : Text) (cpus : Int) : MachineType where
  machineTypeId := ⟨"p", zone, name⟩
  cpus := .int cpus

/-- Machine types of two zones that are out of order, with a name that stands twice. -/
def mixedTypes : List MachineType :=
  [cpusIn "y" "n" 1, cpusIn "x" "n" 2, cpusIn "y" "m" 3, cpusIn "y" "n" 4]

/-- Their zones. -/
def mixedZones : List (Text × List MachineType) :=
  [("p/x", [cpusIn "x" "n" 2]), ("p/y", [cpusIn "y" "m" 3, cpusIn "y" "n" 1, cpusIn "y" "n" 4])]

theorem byZone_partitions_mixedTypes : byZone mixedTypes = mixedZones := by
  have hx (name : Text) (n : Int) : zoneText (cpusIn "x" name n) = "p/x" := rfl
  have hy (name : Text) (n : Int) : zoneText (cpusIn "y" name n) = "p/y" := rfl
  have honly := (byZone_partitions mixedTypes).1 mixedZones
  refine (honly.1 ⟨by decide, fun zone => ?_, ?_, ?_, ?_⟩).symm
  · simp only [mixedTypes, mixedZones, List.map_cons, List.map_nil, List.mem_cons,
      List.not_mem_nil, or_false, exists_eq_or_imp, exists_eq_left, hx, hy]
    tauto
  · rw [mixedZones, List.forall_mem_cons, List.forall_mem_singleton]
    exact ⟨.refl _, List.Perm.swap _ _ _⟩
  · rw [mixedZones, List.forall_mem_cons, List.forall_mem_singleton]
    exact ⟨by decide, by decide⟩
  · rw [mixedZones, List.forall_mem_cons, List.forall_mem_singleton]
    refine ⟨fun name => rfl, fun name => ?_⟩
    by_cases hm : ("m" : Text) = name
    · obtain rfl := hm
      rfl
    · have hthree : decide ((cpusIn "y" "m" 3).name = name) = false := decide_eq_false hm
      show List.filter _ [cpusIn "y" "m" 3, cpusIn "y" "n" 1, cpusIn "y" "n" 4] =
        List.filter _ [cpusIn "y" "n" 1, cpusIn "y" "m" 3, cpusIn "y" "n" 4]
      simp only [List.filter_cons, hthree, Bool.false_eq_true, if_false]

end Report
end MachineCatalog
