import Loopy.Watch.Basic

/-!
# Delivery of watch events

The kernel has one watch for an inode, with one mask; the handle has any number of watches, with
masks of their own. As long as no watch is added for an inode that another active watch names, the
two tables agree (`WatchInv`), and a record reaches the watch that it is for.
-/

namespace Loopy.Watch

open Loopy.Lib
open Function (update update_of_ne update_self)

variable {Ino : Type}

/-! ## The law -/

/-- For every event that is through, the callbacks that were called are those of the watches that
were active and asked for it, and that have not been removed since, each once and with its own
data. -/
def WatchLaw (w : LoopyWatch Ino) : Prop :=
  ∀ h ∈ w.handled, h.calls = h.due.map fun entry => entry.call h.mask h.name

/-- No watch is added for an inode that an active watch names. -/
def Separate [DecidableEq Ino] (inode : CString → Option Ino) (w : LoopyWatch Ino) :
    Action Ino → Prop
  | .add (some path) _ (some _) _ .added =>
    w.watchFindFree.isSome → ∀ ino ∈ inode path, ∀ i ∈ slots, ¬ w.names inode ino i
  | _ => True

instance [DecidableEq Ino] (inode : CString → Option Ino) (w : LoopyWatch Ino) :
    ∀ a, Decidable (Separate inode w a)
  | .add (some _) _ (some _) _ .added =>
    inferInstanceAs (Decidable (_ → _))
  | .add (some _) _ (some _) _ .noMemory | .add (some _) _ (some _) _ .refused
  | .add (some _) _ none _ _ | .add none _ _ _ _ | .remove _ | .removeAll | .fsEvent ..
  | .handle => isTrue trivial

/-! ## Masks -/

/-- The events and their bits. -/
def eventTable : List (BitVec 32 × BitVec 32) :=
  [(LOOPY_WATCH_MODIFY, IN_MODIFY ||| IN_CLOSE_WRITE), (LOOPY_WATCH_CREATE, IN_CREATE),
    (LOOPY_WATCH_DELETE, IN_DELETE ||| IN_DELETE_SELF),
    (LOOPY_WATCH_RENAME, IN_MOVE ||| IN_MOVED_FROM ||| IN_MOVED_TO),
    (LOOPY_WATCH_ATTRIB, IN_ATTRIB)]

theorem eventsToInotify_eq (events : BitVec 32) :
    eventsToInotify events = translate eventTable events := rfl

theorem inotifyToEvents_eq (mask : BitVec 32) :
    inotifyToEvents mask = translate (eventTable.map Prod.swap) mask := rfl

/-- The kernel is asked for exactly the events that a watch has requested. -/
theorem requested_iff (mask events : BitVec 32) :
    mask &&& eventsToInotify events ≠ 0#32 ↔ events &&& inotifyToEvents mask ≠ 0#32 := by
  rw [eventsToInotify_eq, inotifyToEvents_eq]
  exact translate_swap eventTable events mask

/-! ## Slots -/

/-- If at most one element meets `p`, the first one is the only one. -/
theorem filter_eq_find? {α : Type} {l : List α} {p : α → Bool} (hl : l.Nodup)
    (hone : ∀ a ∈ l, ∀ b ∈ l, p a → p b → a = b) : l.filter p = (l.find? p).toList := by
  rw [← List.head?_filter]
  cases hf : l.filter p with
  | nil => rfl
  | cons a rest =>
    cases rest with
    | nil => rfl
    | cons b rest =>
      have ha : a ∈ l.filter p := by simp [hf]
      have hb : b ∈ l.filter p := by simp [hf]
      rw [List.mem_filter] at ha hb
      have hab := hone a ha.1 b hb.1 ha.2 hb.2
      have hnodup := hl.filter p
      rw [hf, hab] at hnodup
      exact absurd List.mem_cons_self (List.nodup_cons.mp hnodup).1

/-! ## The invariant -/

variable {w w' : LoopyWatch Ino} {i : ℕ} {wd : ℤ}

/-- The active watches with a watch descriptor. -/
def LoopyWatch.watching (w : LoopyWatch Ino) (wd : ℤ) : List (ℕ × LoopyWatchEntry) :=
  (slots.filter (w.hasWd wd)).map fun i => (i, w.watches i)

theorem LoopyWatch.hasWd_iff : w.hasWd wd i ↔ (w.watches i).active ∧ (w.watches i).wd = wd := by
  rw [LoopyWatch.hasWd, Bool.and_eq_true, decide_eq_true_iff]

/-- Only the watches that have the watch descriptor count. -/
theorem LoopyWatch.watching_congr
    (h : ∀ i ∈ slots, w.hasWd wd i ∨ w'.hasWd wd i → w'.watches i = w.watches i) :
    w'.watching wd = w.watching wd := by
  have hsame : ∀ i ∈ slots, w'.hasWd wd i = w.hasWd wd i := by
    intro i hi
    by_cases hor : w.hasWd wd i ∨ w'.hasWd wd i
    · rw [LoopyWatch.hasWd, h i hi hor, LoopyWatch.hasWd]
    · rw [not_or, Bool.not_eq_true, Bool.not_eq_true] at hor
      rw [hor.1, hor.2]
  rw [LoopyWatch.watching, LoopyWatch.watching, List.filter_congr hsame]
  refine List.map_congr_left fun i hi => ?_
  obtain ⟨hmem, hwd⟩ := List.mem_filter.mp hi
  rw [h i hmem (Or.inl hwd)]

variable [DecidableEq Ino] {inode : CString → Option Ino} {ino ino' : Ino}

theorem LoopyWatch.names_iff :
    w.names inode ino i ↔ (w.watches i).active ∧ (w.watches i).path.bind inode = some ino := by
  rw [LoopyWatch.names, Bool.and_eq_true, decide_eq_true_iff]

theorem LoopyWatch.names_unique (h : w.names inode ino i) (h' : w.names inode ino' i) :
    ino = ino' := by
  rw [names_iff] at h h'
  exact Option.some.inj (h.2.symm.trans h'.2)

/-- The watches of the handle and those of the kernel agree. -/
structure WatchInv (inode : CString → Option Ino) (w : LoopyWatch Ino) : Prop where
  /-- The kernel watches for an active watch, with its mask. -/
  entry : ∀ i ∈ slots, (w.watches i).active → ∃ ino, w.names inode ino i ∧
    (w.watches i).callback.isSome ∧
    w.inotify.watch ino = some ((w.watches i).wd, eventsToInotify (w.watches i).events)
  apart : ∀ i ∈ slots, ∀ j ∈ slots, ∀ ino, w.names inode ino i → w.names inode ino j → i = j
  /-- The kernel watches for no other inode. -/
  owner : ∀ ino x, w.inotify.watch ino = some x → ∃ i ∈ slots, w.names inode ino i
  queue : ∀ event ∈ w.queue, event.wd < w.inotify.nextWd ∧ event.due = w.watching event.wd
  law : WatchLaw w

theorem WatchInv.new (inode : CString → Option Ino) : WatchInv inode (loopyWatchNew Ino) :=
  ⟨nofun, nofun, nofun, nofun, nofun⟩

/-- The kernel's watch of an inode is that of the watch that names it. -/
theorem WatchInv.of_names (h : WatchInv inode w) (hi : i ∈ slots) (hnames : w.names inode ino i) :
    (w.watches i).callback.isSome ∧
      w.inotify.watch ino = some ((w.watches i).wd, eventsToInotify (w.watches i).events) := by
  obtain ⟨ino', hnames', hcallback, hwatch⟩ := h.entry i hi (LoopyWatch.names_iff.mp hnames).1
  rw [LoopyWatch.names_unique hnames hnames']
  exact ⟨hcallback, hwatch⟩

/-- Watch descriptors are not shared. -/
theorem WatchInv.wd_apart (h : WatchInv inode w) {j : ℕ} (hi : i ∈ slots) (hj : j ∈ slots)
    (hwi : w.hasWd wd i) (hwj : w.hasWd wd j) : i = j := by
  rw [LoopyWatch.hasWd_iff] at hwi hwj
  obtain ⟨ino, hnames, -, hwatch⟩ := h.entry i hi hwi.1
  obtain ⟨ino', hnames', -, hwatch'⟩ := h.entry j hj hwj.1
  have hwd : (w.watches i).wd = (w.watches j).wd := hwi.2.trans hwj.2.symm
  obtain rfl : ino = ino' := w.inotify.inj _ _ _ _ hwatch hwatch' hwd
  exact h.apart i hi j hj ino hnames hnames'

/-! ## Additions -/

/-- The active watches are the same. -/
structure SameActive (w w' : LoopyWatch Ino) : Prop where
  watches : ∀ i, (w.watches i).active ∨ (w'.watches i).active → w'.watches i = w.watches i
  inotify : w'.inotify = w.inotify
  queue : w'.queue = w.queue
  handled : w'.handled = w.handled

variable {entry : LoopyWatchEntry} {nextId : UInt64} {k : Inotify Ino} {path : CString}
  {mask : BitVec 32}

omit [DecidableEq Ino] in
/-- An inactive slot is overwritten. -/
theorem SameActive.setEntry (hfree : (w.watches i).active = false) (hentry : entry.active = false) :
    SameActive w { w.setEntry i entry with nextId } := by
  refine ⟨fun j hj => ?_, rfl, rfl, rfl⟩
  show update w.watches i entry j = w.watches j
  by_cases hji : j = i
  · subst hji
    change _ ∨ (update w.watches j entry j).active = true at hj
    rw [update_self, hfree, hentry] at hj
    cases hj <;> contradiction
  · rw [update_of_ne hji]

theorem SameActive.names (h : SameActive w w') (inode : CString → Option Ino) (ino : Ino) (i : ℕ) :
    w'.names inode ino i = w.names inode ino i := by
  by_cases hor : (w.watches i).active ∨ (w'.watches i).active
  · rw [LoopyWatch.names, h.watches i hor, LoopyWatch.names]
  · rw [not_or, Bool.not_eq_true, Bool.not_eq_true] at hor
    rw [LoopyWatch.names, LoopyWatch.names, hor.1, hor.2, Bool.false_and, Bool.false_and]

theorem WatchInv.same (h : WatchInv inode w) (hs : SameActive w w') : WatchInv inode w' := by
  constructor
  · intro i hi hactive
    rw [hs.watches i (Or.inr hactive), hs.inotify]
    rw [hs.watches i (Or.inr hactive)] at hactive
    obtain ⟨ino, hnames, hrest⟩ := h.entry i hi hactive
    refine ⟨ino, ?_, hrest⟩
    rw [hs.names]
    exact hnames
  · intro i hi j hj ino hni hnj
    rw [hs.names] at hni hnj
    exact h.apart i hi j hj ino hni hnj
  · intro ino x hx
    rw [hs.inotify] at hx
    obtain ⟨i, hi, hnames⟩ := h.owner ino x hx
    refine ⟨i, hi, ?_⟩
    rw [hs.names]
    exact hnames
  · intro event hmem
    rw [hs.queue] at hmem
    obtain ⟨hlt, hdue⟩ := h.queue event hmem
    rw [hs.inotify]
    refine ⟨hlt, hdue.trans (LoopyWatch.watching_congr fun i _ hor => ?_).symm⟩
    rw [LoopyWatch.hasWd_iff, LoopyWatch.hasWd_iff] at hor
    exact hs.watches i (hor.imp And.left And.left)
  · intro x hx
    rw [hs.handled] at hx
    exact h.law x hx

/-- **A watch is added** for an inode that the kernel does not watch. -/
theorem WatchInv.insert (h : WatchInv inode w) {watchCount : ℕ} (hi : i ∈ slots)
    (hfree : (w.watches i).active = false) (hnone : w.inotify.watch ino = none)
    (hactive : entry.active) (hcallback : entry.callback.isSome)
    (hpath : entry.path.bind inode = some ino) (hwd : entry.wd = w.inotify.nextWd) :
    WatchInv inode { w.setEntry i entry with
      watchCount, nextId, inotify := w.inotify.insert ino (eventsToInotify entry.events) } := by
  set w' : LoopyWatch Ino := { w.setEntry i entry with
    watchCount, nextId, inotify := w.inotify.insert ino (eventsToInotify entry.events) } with hw'
  have hself : w'.watches i = entry := update_self ..
  have hother : ∀ j, j ≠ i → w'.watches j = w.watches j := fun j hj => update_of_ne hj ..
  have hnames : ∀ j, j ≠ i → ∀ ino, w'.names inode ino j = w.names inode ino j := by
    intro j hj ino
    rw [LoopyWatch.names, hother j hj, LoopyWatch.names]
  have hnew : w'.names inode ino i := by
    rw [LoopyWatch.names_iff, hself]
    exact ⟨hactive, hpath⟩
  -- no other watch names the inode
  have hnot : ∀ j ∈ slots, ¬ w.names inode ino j := by
    intro j hj hn
    rw [(h.of_names hj hn).2] at hnone
    cases hnone
  constructor
  · intro j hj hjactive
    by_cases hji : j = i
    · subst hji
      refine ⟨ino, hnew, ?_⟩
      rw [hself, hwd]
      exact ⟨hcallback, update_self ..⟩
    · rw [hother j hji] at hjactive ⊢
      obtain ⟨ino', hn, hcb, hwatch⟩ := h.entry j hj hjactive
      have hne : ino' ≠ ino := by
        rintro rfl
        exact hnot j hj hn
      refine ⟨ino', ?_, hcb, ?_⟩
      · rw [hnames j hji]
        exact hn
      · exact (update_of_ne hne ..).trans hwatch
  · intro j hj k hk ino' hnj hnk
    by_cases hji : j = i
    · subst hji
      obtain rfl := LoopyWatch.names_unique hnj hnew
      by_contra hkj
      rw [hnames k (Ne.symm hkj)] at hnk
      exact hnot k hk hnk
    · rw [hnames j hji] at hnj
      by_cases hki : k = i
      · subst hki
        obtain rfl := LoopyWatch.names_unique hnk hnew
        exact absurd hnj (hnot j hj)
      · rw [hnames k hki] at hnk
        exact h.apart j hj k hk ino' hnj hnk
  · intro ino' x hx
    by_cases hino : ino' = ino
    · subst hino
      exact ⟨i, hi, hnew⟩
    · have hold : w.inotify.watch ino' = some x := (update_of_ne hino ..).symm.trans hx
      obtain ⟨j, hj, hn⟩ := h.owner ino' x hold
      refine ⟨j, hj, ?_⟩
      rw [hnames j fun hji => ?_]
      · exact hn
      · rw [LoopyWatch.names_iff, hji, hfree] at hn
        exact Bool.false_ne_true hn.1
  · intro event hmem
    obtain ⟨hlt, hdue⟩ := h.queue event hmem
    refine ⟨Int.lt_trans hlt (Int.lt_succ _), ?_⟩
    rw [hdue]
    refine (LoopyWatch.watching_congr fun j _ hor => ?_).symm
    -- the watch descriptor of the new watch is younger than the record
    refine hother j fun hji => ?_
    rw [LoopyWatch.hasWd_iff, LoopyWatch.hasWd_iff, hji, hself, hfree, hwd] at hor
    obtain hold | hyoung := hor
    · exact Bool.false_ne_true hold.1
    · rw [hyoung.2] at hlt
      exact Int.lt_irrefl _ hlt
  · exact h.law

theorem mem_slots_of_find? {p : ℕ → Bool} (h : slots.find? p = some i) : i ∈ slots ∧ p i :=
  ⟨List.mem_of_find?_eq_some h, List.find?_some h⟩

omit [DecidableEq Ino] in
theorem LoopyWatch.watchFindFree_spec (h : w.watchFindFree = some i) :
    i ∈ slots ∧ (w.watches i).active = false := by
  obtain ⟨hi, hfree⟩ := mem_slots_of_find? h
  exact ⟨hi, by simpa using hfree⟩

/-- A failure leaves the instance. -/
theorem inotifyAddWatch_failed {refused : Bool} (h : refused = true ∨ inode path = none) :
    inotifyAddWatch inode k path mask refused = (-1, k) := by
  unfold inotifyAddWatch
  split
  · rfl
  · next ino hino =>
    obtain rfl | hnone := h
    · rfl
    · rw [hino] at hnone
      cases hnone

/-- The watch descriptor for an inode without one. -/
theorem inotifyAddWatch_new (hino : inode path = some ino) (hnone : k.watch ino = none) :
    inotifyAddWatch inode k path mask false = (k.nextWd, k.insert ino mask) := by
  unfold inotifyAddWatch
  rw [hino]
  dsimp only
  rw [if_neg Bool.false_ne_true]
  split
  · next x hx =>
    rw [hnone] at hx
    cases hx
  · rfl

/-- **`loopyWatchAdd`.** -/
theorem WatchInv.add (h : WatchInv inode w) {path : Option CString} {events : BitVec 32}
    {cb : Option ℕ} {userData : ℕ} {result : AddResult}
    (hok : Separate inode w (.add path events cb userData result)) :
    WatchInv inode (loopyWatchAdd w inode path events cb userData result).1 := by
  unfold loopyWatchAdd
  split
  · next path cb =>
    split
    · exact h
    · next i hfind =>
      obtain ⟨hi, hfree⟩ := LoopyWatch.watchFindFree_spec hfind
      split
      · exact h.same (.setEntry hfree hfree)
      · next hmemory =>
        dsimp only
        cases result with
        | noMemory => exact absurd rfl hmemory
        | refused =>
          rw [decide_eq_true rfl, inotifyAddWatch_failed (Or.inl rfl)]
          exact h.same (.setEntry hfree rfl)
        | added =>
          rw [decide_eq_false AddResult.noConfusion]
          cases hino : inode path with
          | none =>
            rw [inotifyAddWatch_failed (Or.inr hino)]
            exact h.same (.setEntry hfree rfl)
          | some ino =>
            have hnone : w.inotify.watch ino = none := by
              cases hwatch : w.inotify.watch ino with
              | none => rfl
              | some x =>
                obtain ⟨j, hj, hn⟩ := h.owner ino x hwatch
                exact absurd hn (hok (by rw [hfind]; rfl) ino hino j hj)
            have hwd : w.inotify.nextWd ≠ -1 := by
              have hpos := w.inotify.positive
              omega
            rw [inotifyAddWatch_new hino hnone]
            dsimp only
            rw [if_neg hwd]
            exact h.insert hi hfree hnone rfl rfl hino rfl
  · exact h

/-! ## Removals -/

/-- **A watch is removed.** -/
theorem WatchInv.clear (h : WatchInv inode w) (hi : i ∈ slots) (hactive : (w.watches i).active) :
    WatchInv inode (w.clear i) := by
  have hself : (w.clear i).watches i = .zero := update_self ..
  have hother : ∀ j, j ≠ i → (w.clear i).watches j = w.watches j :=
    fun j hj => update_of_ne hj ..
  have hinactive : ∀ j, ((w.clear i).watches j).active → j ≠ i := by
    rintro j hj rfl
    rw [hself] at hj
    cases hj
  have hnames : ∀ j ino, (w.clear i).names inode ino j → j ≠ i ∧ w.names inode ino j := by
    intro j ino hn
    have hji := hinactive j (LoopyWatch.names_iff.mp hn).1
    rw [LoopyWatch.names, hother j hji] at hn
    exact ⟨hji, hn⟩
  have hrm : ∀ ino x, (w.clear i).inotify.watch ino = some x ↔
      w.inotify.watch ino = some x ∧ x.1 ≠ (w.watches i).wd := by
    intro ino x
    refine Option.filter_eq_some_iff.trans (and_congr_right fun _ => ?_)
    exact decide_eq_true_iff
  constructor
  · intro j hj hjactive
    have hji := hinactive j hjactive
    rw [hother j hji] at hjactive ⊢
    obtain ⟨ino, hn, hcallback, hwatch⟩ := h.entry j hj hjactive
    refine ⟨ino, ?_, hcallback, (hrm ino _).mpr ⟨hwatch, fun hwd => hji ?_⟩⟩
    · rw [LoopyWatch.names, hother j hji]
      exact hn
    · exact h.wd_apart hj hi (LoopyWatch.hasWd_iff.mpr ⟨hjactive, hwd⟩)
        (LoopyWatch.hasWd_iff.mpr ⟨hactive, rfl⟩)
  · intro j hj k hk ino hnj hnk
    exact h.apart j hj k hk ino (hnames j ino hnj).2 (hnames k ino hnk).2
  · intro ino x hx
    obtain ⟨hold, hwd⟩ := (hrm ino x).mp hx
    obtain ⟨j, hj, hn⟩ := h.owner ino x hold
    have hji : j ≠ i := by
      rintro rfl
      rw [(h.of_names hj hn).2] at hold
      exact hwd (congrArg Prod.fst (Option.some.inj hold)).symm
    refine ⟨j, hj, ?_⟩
    rw [LoopyWatch.names, hother j hji]
    exact hn
  · intro event hmem
    obtain ⟨old, hold, rfl⟩ := List.mem_map.mp hmem
    obtain ⟨hlt, hdue⟩ := h.queue old hold
    refine ⟨hlt, ?_⟩
    show old.due.filter (fun x => x.1 ≠ i) = (w.clear i).watching old.wd
    have hwd : ∀ j ∈ slots, (w.clear i).hasWd old.wd j = (decide (j ≠ i) && w.hasWd old.wd j) := by
      intro j hj
      by_cases hji : j = i
      · rw [LoopyWatch.hasWd, hji, hself, decide_eq_false (not_not_intro rfl)]
        rfl
      · rw [LoopyWatch.hasWd, hother j hji, decide_eq_true hji, Bool.true_and, LoopyWatch.hasWd]
    rw [hdue, LoopyWatch.watching, LoopyWatch.watching, List.filter_map, List.filter_congr hwd,
      List.filter_filter]
    refine List.map_congr_left fun j hj => ?_
    obtain ⟨-, hj⟩ := List.mem_filter.mp hj
    rw [hother j (of_decide_eq_true (Bool.and_eq_true_iff.mp hj).1)]
  · exact h.law

/-- **`loopyWatchRemove`.** -/
theorem WatchInv.remove (h : WatchInv inode w) (watchId : UInt64) :
    WatchInv inode (loopyWatchRemove w watchId).1 := by
  unfold loopyWatchRemove
  split
  · exact h
  · split
    · exact h
    · next i hfind =>
      split
      · next hactive => exact h.clear (mem_slots_of_find? hfind).1 hactive
      · exact h

/-- **`loopyWatchRemoveAll`.** -/
theorem WatchInv.removeAll (h : WatchInv inode w) : WatchInv inode (loopyWatchRemoveAll w) := by
  unfold loopyWatchRemoveAll
  generalize slots = l
  induction l generalizing w with
  | nil => exact h
  | cons i l ih =>
    rw [List.foldl_cons]
    refine ih ?_
    split
    · exact h.remove _
    · exact h

/-! ## Events -/

/-- A record is for the watches that have its watch descriptor. -/
theorem WatchInv.due_eq (h : WatchInv inode w) {watched : BitVec 32}
    (hwatch : w.inotify.watch ino = some (wd, watched)) (hmask : mask &&& watched ≠ 0#32) :
    w.due inode ino mask = w.watching wd := by
  unfold LoopyWatch.due LoopyWatch.watching
  congr 1
  refine List.filter_congr fun i hi => ?_
  rw [Bool.eq_iff_iff, Bool.and_eq_true, bne_iff_ne, LoopyWatch.hasWd_iff]
  constructor
  · rintro ⟨hn, -⟩
    have hsame := (h.of_names hi hn).2.symm.trans hwatch
    exact ⟨(LoopyWatch.names_iff.mp hn).1, congrArg Prod.fst (Option.some.inj hsame)⟩
  · rintro ⟨hactive, hwd⟩
    obtain ⟨ino', hn, -, hwatch'⟩ := h.entry i hi hactive
    obtain rfl : ino = ino' := w.inotify.inj _ _ _ _ hwatch hwatch' hwd.symm
    rw [hwatch] at hwatch'
    have hmasks : watched = eventsToInotify (w.watches i).events :=
      congrArg Prod.snd (Option.some.inj hwatch')
    rw [hmasks] at hmask
    exact ⟨hn, (requested_iff mask _).mp hmask⟩

/-- Without a record the event is for no watch. -/
theorem WatchInv.due_nil (h : WatchInv inode w)
    (hnone : ∀ x, w.inotify.watch ino = some x → mask &&& x.2 = 0#32) :
    w.due inode ino mask = [] := by
  refine List.map_eq_nil_iff.mpr (List.filter_eq_nil_iff.mpr fun i hi hfor => ?_)
  rw [Bool.and_eq_true, bne_iff_ne] at hfor
  obtain ⟨hn, hmask⟩ := hfor
  exact (requested_iff mask _).mpr hmask (hnone _ (h.of_names hi hn).2)

/-- **A record reaches its watch.** -/
theorem WatchInv.callsFor_eq (h : WatchInv inode w) {event : InotifyEvent}
    (hdue : event.due = w.watching event.wd) :
    w.callsFor event =
      (event.due.map Prod.snd).map fun entry => entry.call event.mask event.name := by
  have hfind : slots.filter (w.hasWd event.wd) = (w.watchFindByWd event.wd).toList :=
    filter_eq_find? List.nodup_range fun i hi j hj => h.wd_apart hi hj
  rw [hdue, LoopyWatch.watching, hfind, LoopyWatch.callsFor]
  cases hwd : w.watchFindByWd event.wd with
  | none => rfl
  | some i =>
    obtain ⟨hi, hhas⟩ := mem_slots_of_find? hwd
    obtain ⟨-, -, hcallback, -⟩ := h.entry i hi (LoopyWatch.hasWd_iff.mp hhas).1
    dsimp only
    rw [if_pos hcallback]
    rfl

omit [DecidableEq Ino] in
/-- One more event is through. -/
theorem WatchLaw.snoc {x : Handled} (h : WatchLaw w)
    (hx : x.calls = x.due.map fun entry => entry.call x.mask x.name)
    (hw' : w'.handled = w.handled ++ [x]) : WatchLaw w' := by
  intro y hy
  rw [hw'] at hy
  obtain hold | hnew := List.mem_append.mp hy
  · exact h y hold
  · rw [List.mem_singleton.mp hnew]
    exact hx

theorem WatchInv.fsEvent (h : WatchInv inode w) (ino : Ino) (mask : BitVec 32)
    (name : Option CString) : WatchInv inode (w.fsEvent inode ino mask name) := by
  have hunqueued : w.due inode ino mask = [] → WatchInv inode { w with
      handled := w.handled ++
        [{ mask, name, due := (w.due inode ino mask).map Prod.snd, calls := [] }] } := by
    intro hnil
    refine ⟨h.entry, h.apart, h.owner, h.queue, h.law.snoc ?_ rfl⟩
    rw [hnil]
    rfl
  unfold LoopyWatch.fsEvent
  dsimp only
  split
  · next wd watched hwatch =>
    split
    · next hmask =>
      refine ⟨h.entry, h.apart, h.owner, fun event hmem => ?_, h.law⟩
      obtain hold | hnew := List.mem_append.mp hmem
      · exact h.queue event hold
      · rw [List.mem_singleton.mp hnew]
        exact ⟨w.inotify.fresh ino _ hwatch, h.due_eq hwatch hmask⟩
    · next hmask =>
      refine hunqueued (h.due_nil fun x hx => ?_)
      obtain rfl : (wd, watched) = x := Option.some.inj (hwatch.symm.trans hx)
      exact not_not.mp hmask
  · next hwatch =>
    refine hunqueued (h.due_nil fun x hx => ?_)
    rw [hwatch] at hx
    cases hx

theorem WatchInv.step {a : Action Ino} (h : WatchInv inode w) (hok : Separate inode w a)
    (hstep : step inode w a = some w') : WatchInv inode w' := by
  cases a with
  | add path events cb userData result =>
    rw [← Option.some.inj hstep]
    exact h.add hok
  | remove watchId =>
    rw [← Option.some.inj hstep]
    exact h.remove watchId
  | removeAll =>
    rw [← Option.some.inj hstep]
    exact h.removeAll
  | fsEvent ino mask name =>
    rw [← Option.some.inj hstep]
    exact h.fsEvent ino mask name
  | handle =>
    rw [Watch.step] at hstep
    split at hstep
    · cases hstep
    · next event rest hqueue =>
      rw [← Option.some.inj hstep]
      have hmem : ∀ x ∈ event :: rest, x.wd < w.inotify.nextWd ∧ x.due = w.watching x.wd := by
        rw [← hqueue]
        exact h.queue
      have hcalls := h.callsFor_eq (hmem event List.mem_cons_self).2
      exact ⟨h.entry, h.apart, h.owner, fun x hx => hmem x (List.mem_cons_of_mem event hx),
        h.law.snoc hcalls rfl⟩

/-! ## The theorem -/

/-- **Every watch gets its events.** In every run in which no watch is added for an inode that
an active watch names, an event that is through has called the callbacks of the watches that it is
for, each once and with its own id and data, and no others. -/
theorem events_delivered (inode : CString → Option Ino) (as : List (Action Ino))
    (w : LoopyWatch Ino)
    (hrun : Run (step inode) (Separate inode) (loopyWatchNew Ino) as w) : WatchLaw w :=
  (hrun.invariant (P := WatchInv inode) (fun _ _ _ h hok hstep => h.step hok hstep)
    (.new inode)).law

/-- Two files; a second name of the first one. -/
def files (path : CString) : Option ℕ :=
  if path = [97] ∨ path = [99] then some 1 else if path = [98] then some 2 else none

/-- Two files are watched, one for two kinds of events; a watch is removed before its record is
read, and its file is watched again; so is the other file, under its second name. -/
def watchRun : List (Action ℕ) :=
  [.add (some [97]) (LOOPY_WATCH_MODIFY ||| LOOPY_WATCH_ATTRIB) (some 7) 1 .added,
    .add (some [98]) LOOPY_WATCH_DELETE (some 8) 2 .added,
    .add (some [100]) 0x1F#32 (some 8) 3 .added, .fsEvent 1 IN_CLOSE_WRITE none,
    .fsEvent 1 IN_CREATE none, .fsEvent 2 IN_DELETE_SELF none, .handle, .remove 2, .handle,
    .add (some [98]) LOOPY_WATCH_CREATE (some 9) 4 .added, .fsEvent 2 IN_CREATE (some [120]),
    .handle, .remove 1,
    .add (some [99]) LOOPY_WATCH_MODIFY (some 7) 5 .added, .fsEvent 1 IN_MODIFY none, .handle]

theorem events_delivered_watchRun :
    ∃ w, Run (step files) (Separate files) (loopyWatchNew ℕ) watchRun w ∧ WatchLaw w ∧
      w.handled.map (fun h => h.calls.map fun c => (c.callback, c.info.watchId, c.info.userData)) =
        [[], [(some 7, 1, 1)], [], [(some 9, 4, 4)], [(some 7, 5, 5)]] := by
  have hexec : (exec (step files) (Separate files) (loopyWatchNew ℕ) watchRun).map (fun w =>
      w.handled.map fun h => h.calls.map fun c => (c.callback, c.info.watchId, c.info.userData)) =
      some [[], [(some 7, 1, 1)], [], [(some 9, 4, 4)], [(some 7, 5, 5)]] := by
    decide +kernel
  obtain ⟨w, hrun, hval⟩ := Run.of_exec_map hexec
  exact ⟨w, hrun, events_delivered files watchRun w hrun, hval⟩

/-- Two watches of one path with different masks: the second one replaces the mask of the first one
in the kernel, and a modification is not reported. -/
theorem mask_replaced :
    ¬ ∀ (as : List (Action ℕ)) (w : LoopyWatch ℕ),
      Run (step files) (fun _ _ => True) (loopyWatchNew ℕ) as w → WatchLaw w := by
  intro hall
  have hexec : (exec (step files) (fun _ _ => True) (loopyWatchNew ℕ)
      [.add (some [97]) LOOPY_WATCH_MODIFY (some 7) 1 .added,
        .add (some [97]) LOOPY_WATCH_ATTRIB (some 8) 2 .added, .fsEvent 1 IN_MODIFY none]).map
      (fun w => w.handled.map fun h => (h.due.length, h.calls.length)) = some [(1, 0)] := by
    decide +kernel
  obtain ⟨w, hw, hval⟩ := Run.of_exec_map hexec
  have hlaw := hall _ w hw
  obtain ⟨x, hx, hlens⟩ : ∃ x ∈ w.handled, (x.due.length, x.calls.length) = (1, 0) :=
    List.mem_map.mp (by rw [hval]; exact List.mem_cons_self)
  have hlen := congrArg List.length (hlaw x hx)
  rw [List.length_map, (Prod.mk.inj hlens).1, (Prod.mk.inj hlens).2] at hlen
  cases hlen

end Loopy.Watch
