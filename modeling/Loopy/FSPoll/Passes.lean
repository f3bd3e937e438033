import Loopy.FSPoll.Basic
import Loopy.Lib.Loops

/-!
# The passes of the timer

`pollTimerCallback` goes on from the entry whose callback it has called: it writes what it has
found to the entry and reads its link. Callbacks may start entries and stop other ones, which come
before or after it in the list. `passes_safe` is what holds as long as no callback stops its own
entry.
-/

namespace Loopy.FSPoll

open Loopy.Lib

/-! ## The law -/

/-- No freed entry is used; every entry that is there throughout a pass is examined once; the timer
is registered exactly if there is an entry. -/
structure PassLaw (s : System) : Prop where
  misuse : s.misuse = []
  once : s.pc = .user → ∀ n ∈ s.passStart, s.steady n = true → s.examined.count n = 1
  timer : s.timers = if s.entries = none then [] else [s.timerId]

/-- A callback does not stop the entry `n`. -/
def MayStop (s : System) (pollId : ℕ) : Pc → Prop
  | .callback n _ => pollId ≠ (s.entry n).id
  | _ => True

/-- The condition on a step: a callback does not stop its own entry. -/
def Spared (s : System) : Action → Prop
  | .stop pollId => MayStop s pollId s.pc
  | .stopAll => s.pc = .user
  | _ => True

instance (s : System) (pollId : ℕ) : ∀ pc, Decidable (MayStop s pollId pc)
  | .callback n _ => inferInstanceAs (Decidable (_ ≠ (s.entry n).id))
  | .user | .walk _ | .crashed => inferInstanceAs (Decidable True)

instance (s : System) : ∀ a, Decidable (Spared s a)
  | .stop pollId => inferInstanceAs (Decidable (MayStop s pollId s.pc))
  | .stopAll => inferInstanceAs (Decidable (s.pc = .user))
  | .start .. | .timer | .examine _ | .ret | .finish => inferInstanceAs (Decidable True)

/-! ## The invariant -/

/-- The callback is where the tour of the list is. -/
def Position (l todo : List ℕ) : Pc → Prop
  | .user => todo = []
  | .walk current => current = todo.head?
  | .callback n _ => ∃ l₁, l = l₁ ++ n :: todo
  | .crashed => False

/-- What holds between steps, for the entries of the list. -/
structure FSPollInv (s : System) (l todo : List ℕ) : Prop where
  chain : Chain s.next s.entries l
  live : ∀ n, s.live n = true ↔ n ∈ l
  bound : ∀ n ∈ l, n < s.allocated
  ids : ∀ m n, m < s.allocated → n < s.allocated → (s.entry m).id = (s.entry n).id → m = n
  fresh : ∀ n < s.allocated, (s.entry n).id < s.nextId
  timers : s.timers = if s.entries = none then [] else [s.timerId]
  timerId : s.timerId = 0 ↔ s.entries = none
  started : ∀ n ∈ s.passStart, n < s.allocated
  steady : ∀ n, s.steady n = true → s.live n = true
  tour : Tour s.passStart l todo s.examined
  misuse : s.misuse = []
  position : Position l todo s.pc

/-- What a step does, with what it has found. -/
inductive Stepped (s : System) : Action → System → Prop
  | start (path : ℕ) (events : BitVec 32) (cb userData : ℕ) (newStat : Option Stat) (timerId : ℕ) :
    Stepped s (.start path events cb userData newStat timerId)
      (s.loopyFSPollStart path events cb userData newStat timerId).track
  | stop (pollId : ℕ) (hruns : s.userRuns = true) :
    Stepped s (.stop pollId) (s.loopyFSPollStop pollId).track
  | stopAll : Stepped s .stopAll s.loopyFSPollStopAll.track
  | timer (hpc : s.pc = .user) : Stepped s .timer { s with
      pc := .walk s.entries
      passStart := s.listed
      steady := s.live
      examined := [] }
  | examine (newStat : Option Stat) (n : ℕ) (hpc : s.pc = .walk (some n)) (hn : s.live n = true) :
    Stepped s (.examine newStat) (s.examine n newStat)
  | examineFreed (newStat : Option Stat) (n : ℕ) (hpc : s.pc = .walk (some n))
    (hfreed : ¬ s.live n = true) : Stepped s (.examine newStat) (s.crash n)
  | ret (newStat : Option Stat) (n : ℕ) (hpc : s.pc = .callback n newStat) (hn : s.live n = true) :
    Stepped s .ret (s.update n newStat)
  | retFreed (newStat : Option Stat) (n : ℕ) (hpc : s.pc = .callback n newStat)
    (hfreed : ¬ s.live n = true) : Stepped s .ret (s.crash n)
  | finish (hpc : s.pc = .walk none) : Stepped s .finish { s with pc := .user }

theorem stepped {a : Action} (hstep : s.step a = some t) : Stepped s a t := by
  unfold System.step at hstep
  cases a with
  | start path events cb userData newStat timerId =>
    obtain ⟨-, rfl⟩ := of_guard hstep
    exact .start path events cb userData newStat timerId
  | stop pollId =>
    obtain ⟨hruns, rfl⟩ := of_guard hstep
    exact .stop pollId hruns
  | stopAll =>
    obtain ⟨-, rfl⟩ := of_guard hstep
    exact .stopAll
  | timer =>
    obtain ⟨hc, rfl⟩ := of_guard hstep
    exact .timer hc.1
  | examine newStat =>
    dsimp only at hstep
    split at hstep
    next n hpc =>
      split at hstep
      next hn =>
        cases hstep
        exact .examine newStat n hpc hn
      next hfreed =>
        cases hstep
        exact .examineFreed newStat n hpc hfreed
    next => cases hstep
  | ret =>
    dsimp only at hstep
    split at hstep
    next n newStat hpc =>
      split at hstep
      next hn =>
        cases hstep
        exact .ret newStat n hpc hn
      next hfreed =>
        cases hstep
        exact .retFreed newStat n hpc hfreed
    next => cases hstep
  | finish =>
    dsimp only at hstep
    split at hstep
    next hpc =>
      cases hstep
      exact .finish hpc
    next => cases hstep

/-- A list with a head. -/
theorem exists_of_head? (h : some n = todo.head?) : ∃ rest, todo = n :: rest := by
  cases todo with
  | nil => cases h
  | cons m rest =>
    cases h
    exact ⟨rest, rfl⟩

namespace FSPollInv

variable {s t : System} {l todo rest : List ℕ} {n : ℕ}

theorem new (followSymlinks : Bool) : FSPollInv (.new followSymlinks) [] [] where
  chain := .nil
  live _ := iff_of_false Bool.false_ne_true List.not_mem_nil
  bound _ hn := absurd hn List.not_mem_nil
  ids m _ hm := absurd hm (Nat.not_lt_zero m)
  fresh n hn := absurd hn (Nat.not_lt_zero n)
  timers := rfl
  timerId := iff_of_true rfl rfl
  started _ hn := absurd hn List.not_mem_nil
  steady _ hn := absurd hn Bool.false_ne_true
  tour := .init _ List.nodup_nil
  misuse := rfl
  position := rfl

theorem listed_eq (h : FSPollInv s l todo) : s.listed = l :=
  walk_eq h.chain (h.chain.length_le h.bound)

theorem law (h : FSPollInv s l todo) : PassLaw s where
  misuse := h.misuse
  once hpc n hn hsteady := by
    have hposition := h.position
    rw [hpc] at hposition
    have hmem := (h.live n).mp (h.steady n hsteady)
    -- nothing is ahead, so an entry that is still there has been examined
    rcases h.tour.all n hn hmem with hv | ht
    · exact List.count_eq_one_of_mem h.tour.once hv
    · rw [show todo = [] from hposition] at ht
      cases ht
  timer := h.timers

/-- What has been there all the time is there. -/
theorem of_track (s : System) (n : ℕ) (hn : s.track.steady n = true) : s.track.live n = true :=
  (Bool.and_eq_true _ _ ▸ hn : _ ∧ _).2

/-! ## Starting -/

/-- A new entry in front leaves the callback where it is. -/
theorem position_push {pc : Pc} (h : Position l todo pc) (n : ℕ) : Position (n :: l) todo pc := by
  cases pc with
  | user => exact h
  | walk current => exact h
  | callback m newStat =>
    obtain ⟨l₁, rfl⟩ := h
    exact ⟨n :: l₁, rfl⟩
  | crashed => exact h

/-- The ids with that of a new entry. -/
theorem id_new {e : LoopyFSPollEntry} (he : e.id = s.nextId) (m : ℕ) :
    (Function.update s.entry s.allocated e m).id =
      if m = s.allocated then s.nextId else (s.entry m).id := by
  by_cases hm : m = s.allocated
  · rw [hm, Function.update_self, if_pos rfl, he]
  · rw [Function.update_of_ne hm, if_neg hm]

/-- A new entry has an id of its own. -/
theorem ids_new (h : FSPollInv s l todo) {e : LoopyFSPollEntry} (he : e.id = s.nextId) (m k : ℕ)
    (hm : m < s.allocated + 1) (hk : k < s.allocated + 1)
    (heq : (Function.update s.entry s.allocated e m).id =
      (Function.update s.entry s.allocated e k).id) : m = k := by
  rw [id_new he, id_new he] at heq
  have hfresh := h.fresh
  split at heq
  next hm' =>
    split at heq
    next hk' => rw [hm', hk']
    next hk' =>
      have := hfresh k (by omega)
      omega
  next hm' =>
    split at heq
    next hk' =>
      have := hfresh m (by omega)
      omega
    next hk' => exact h.ids m k (by omega) (by omega) heq

/-- The ids stay below the next one. -/
theorem fresh_new (h : FSPollInv s l todo) {e : LoopyFSPollEntry} (he : e.id = s.nextId) (m : ℕ)
    (hm : m < s.allocated + 1) :
    (Function.update s.entry s.allocated e m).id < s.nextId + 1 := by
  rw [id_new he]
  split
  · omega
  · have := h.fresh m (by omega)
    omega

/-- The entries that live, with a new one in front. -/
theorem live_new (h : FSPollInv s l todo) (m : ℕ) :
    Function.update s.live s.allocated true m = true ↔ m ∈ s.allocated :: l := by
  rw [List.mem_cons]
  by_cases hm : m = s.allocated
  · rw [hm, Function.update_self]
    simp
  · rw [Function.update_of_ne hm, h.live]
    simp [hm]

theorem start (h : FSPollInv s l todo) (path : ℕ) (events : BitVec 32) (cb userData : ℕ)
    (newStat : Option Stat) (timerId : ℕ) :
    ∃ l', FSPollInv (s.loopyFSPollStart path events cb userData newStat timerId).track l' todo := by
  have hnew : s.allocated ∉ l := fun hmem => Nat.lt_irrefl _ (h.bound _ hmem)
  have hne : ∀ m ∈ l, m ≠ s.allocated := by
    rintro m hm rfl
    exact hnew hm
  have hchain : Chain (Function.update s.next s.allocated s.entries) s.entries l :=
    h.chain.congr fun m hm => Function.update_of_ne (hne m hm) ..
  have hstarted : ∀ m ∈ s.passStart, m < s.allocated + 1 := fun m hm => by
    have := h.started m hm
    omega
  have hpushed : Chain (Function.update s.next s.allocated s.entries) (some s.allocated)
      (s.allocated :: l) :=
    h.chain.push (Function.update_self ..) fun m hm => Function.update_of_ne (hne m hm) ..
  have hbound : ∀ m ∈ s.allocated :: l, m < s.allocated + 1 := by
    intro m hm
    rcases List.mem_cons.mp hm with rfl | hm
    · omega
    · have := h.bound m hm
      omega
  have htour : Tour s.passStart (s.allocated :: l) todo s.examined :=
    h.tour.push hnew fun hmem => Nat.lt_irrefl _ (h.started _ hmem)
  unfold System.loopyFSPollStart
  split
  · exact ⟨l, h.chain, h.live, h.bound, h.ids, h.fresh, h.timers, h.timerId, h.started,
      of_track s, h.tour, h.misuse, h.position⟩
  next =>
    dsimp only
    split
    next hnone =>
      have hnil := h.timerId.mp hnone
      have htimers := h.timers
      rw [if_pos hnil] at htimers
      split
      next =>
        -- the entry is taken out again
        refine ⟨l, hchain, fun m => ?_, fun m hm => ?_, h.ids_new rfl, h.fresh_new rfl, h.timers,
          h.timerId, hstarted, of_track _, h.tour, h.misuse, h.position⟩
        · show Function.update (Function.update s.live s.allocated true) s.allocated false m = true ↔ _
          rw [Function.update_idem]
          by_cases hm : m = s.allocated
          · rw [hm, Function.update_self]
            exact iff_of_false Bool.false_ne_true hnew
          · rw [Function.update_of_ne hm, h.live]
        · have := h.bound m hm
          show m < s.allocated + 1
          omega
      next hid =>
        refine ⟨s.allocated :: l, hpushed, h.live_new, hbound, h.ids_new rfl, h.fresh_new rfl, ?_, ?_,
          hstarted, of_track _, htour, h.misuse, position_push h.position _⟩
        · show timerId :: s.timers = _
          rw [htimers]
          rfl
        · exact iff_of_false hid (Option.some_ne_none _)
    next hsome =>
      refine ⟨s.allocated :: l, hpushed, h.live_new, hbound, h.ids_new rfl, h.fresh_new rfl, ?_, ?_,
        hstarted, of_track _, htour, h.misuse, position_push h.position _⟩
      · show s.timers = [s.timerId]
        rw [h.timers, if_neg (mt h.timerId.mpr hsome)]
      · exact iff_of_false hsome (Option.some_ne_none _)

/-! ## Stopping -/

/-- An entry other than the one of the callback is taken out. -/
theorem position_erase {pc : Pc} (h : Position l todo pc) (hl : l.Nodup)
    (hne : ∀ m newStat, pc = .callback m newStat → m ≠ n) (hpc : ∀ current, pc ≠ .walk current) :
    Position (l.erase n) (todo.erase n) pc := by
  cases pc with
  | user =>
    rw [show todo = [] from h]
    rfl
  | walk current => exact absurd rfl (hpc current)
  | callback m newStat =>
    obtain ⟨l₁, rfl⟩ := h
    have hm := hne m newStat rfl
    by_cases hn : n ∈ l₁
    · have hdisjoint := (List.nodup_append.mp hl).2.2
      have hnot : n ∉ todo := fun hmem => hdisjoint n hn n (List.mem_cons_of_mem m hmem) rfl
      refine ⟨l₁.erase n, ?_⟩
      rw [List.erase_append_left _ hn, List.erase_of_not_mem hnot]
    · refine ⟨l₁, ?_⟩
      rw [List.erase_append_right _ hn, List.erase_cons_tail (by simpa using hm)]
  | crashed => exact h

/-- The link to an entry leads to the one behind it. -/
theorem setLink {l₁ l₂ : List ℕ} (h : Chain s.next s.entries (l₁ ++ n :: l₂)) :
    Chain (s.setLink l₁.getLast? (s.next n)).next (s.setLink l₁.getLast? (s.next n)).entries
      (l₁ ++ l₂) := by
  unfold System.setLink
  rcases List.eq_nil_or_concat l₁ with rfl | ⟨l, m, rfl⟩
  · exact h.tail
  · rw [List.concat_eq_append] at *
    rw [List.getLast?_concat]
    dsimp only
    rw [List.append_assoc, List.singleton_append] at h ⊢
    exact h.unlink (Function.update_self ..) fun k _ hk => Function.update_of_ne hk ..

theorem setLink_same (s : System) (before link : Option ℕ) :
    s.setLink before link =
      { s with next := (s.setLink before link).next, entries := (s.setLink before link).entries } := by
  unfold System.setLink
  split <;> rfl

theorem stop (h : FSPollInv s l todo) {pollId : ℕ} (hruns : s.userRuns = true)
    (hok : MayStop s pollId s.pc) :
    ∃ l' todo', FSPollInv (s.loopyFSPollStop pollId).track l' todo' := by
  unfold System.loopyFSPollStop
  split
  · exact ⟨l, todo, h.chain, h.live, h.bound, h.ids, h.fresh, h.timers, h.timerId, h.started,
      of_track s, h.tour, h.misuse, h.position⟩
  split
  next =>
    exact ⟨l, todo, h.chain, h.live, h.bound, h.ids, h.fresh, h.timers, h.timerId, h.started,
      of_track s, h.tour, h.misuse, h.position⟩
  next before n hfind =>
    have hid : (s.entry n).id = pollId := by simpa using findLink_test hfind
    have hlen := h.chain.length_le h.bound
    obtain ⟨l₁, l₂, rfl, rfl⟩ := findLink_found h.chain (by omega) hfind
    have hnodup := h.chain.nodup
    have hn₁ : n ∉ l₁ := fun hmem =>
      (List.nodup_append.mp hnodup).2.2 n hmem n List.mem_cons_self rfl
    have herase : (l₁ ++ n :: l₂).erase n = l₁ ++ l₂ := by
      rw [List.erase_append_right _ hn₁, List.erase_cons_head]
    have hchain := setLink h.chain
    have htimers := h.timers
    have hsome : s.entries ≠ none := fun hnone =>
      absurd (h.chain.eq_none_iff.mp hnone) (by simp)
    rw [if_neg hsome] at htimers
    have hsame := setLink_same s l₁.getLast? (s.next n)
    generalize s.setLink l₁.getLast? (s.next n) = t at hchain hsame
    have hlive : ∀ m, Function.update s.live n false m = true ↔ m ∈ l₁ ++ l₂ := by
      intro m
      rw [← herase, hnodup.mem_erase_iff, ← h.live]
      by_cases hm : m = n
      · rw [hm, Function.update_self]
        simp
      · rw [Function.update_of_ne hm]
        simp [hm]
    have hbound : ∀ m ∈ l₁ ++ l₂, m < s.allocated := by
      intro m hm
      rw [← herase] at hm
      exact h.bound m (List.mem_of_mem_erase hm)
    have htour := h.tour.erase n
    have hposition := position_erase h.position hnodup (n := n)
      (fun m newStat hpc => ?_) fun c hpc => ?_
    · rw [herase] at htour hposition
      refine ⟨l₁ ++ l₂, todo.erase n, ?_⟩
      unfold System.stopTimerIfEmpty System.loopyUnregisterTimer
      rw [hsame]
      dsimp only
      split
      next hempty =>
        refine ⟨hchain, hlive, hbound, h.ids, h.fresh, ?_, ?_, h.started, of_track _, htour, h.misuse,
          hposition⟩
        · show s.timers.erase s.timerId = if t.entries = none then [] else [0]
          rw [htimers, List.erase_cons_head, if_pos hempty.1]
        · exact iff_of_true rfl hempty.1
      next hrest =>
        have hid' : s.timerId ≠ 0 := mt h.timerId.mp hsome
        have hrest : t.entries ≠ none := fun hnone => hrest ⟨hnone, hid'⟩
        refine ⟨hchain, hlive, hbound, h.ids, h.fresh, ?_, ?_, h.started, of_track _, htour, h.misuse,
          hposition⟩
        · show s.timers = if t.entries = none then [] else [s.timerId]
          rw [htimers, if_neg hrest]
        · exact iff_of_false hid' hrest
    · -- the entry of the callback has another id
      rintro rfl
      rw [hpc] at hok
      exact hok hid.symm
    · unfold System.userRuns at hruns
      rw [hpc] at hruns
      cases hruns

theorem stopAll (h : FSPollInv s l todo) (hpc : s.pc = .user) :
    FSPollInv s.loopyFSPollStopAll.track [] [] := by
  have htimers := h.timers
  have hlive : ∀ t : System, t.live = s.live → t.listed = s.listed →
      ∀ m, (t.live m && !t.listed.contains m) = true ↔ m ∈ ([] : List ℕ) := by
    intro t hlive hlisted m
    refine iff_of_false (fun hm => ?_) List.not_mem_nil
    rw [hlive, hlisted, h.listed_eq, Bool.and_eq_true, h.live, Bool.not_eq_true'] at hm
    rw [List.contains_iff_mem.mpr hm.1] at hm
    cases hm.2
  have htour : Tour s.passStart [] [] s.examined :=
    ⟨List.suffix_refl _, List.nodup_nil, h.tour.once, fun _ _ => List.not_mem_nil,
      fun _ _ hm => absurd hm List.not_mem_nil⟩
  have hposition : Position [] [] s.pc := by
    rw [hpc]
    rfl
  unfold System.loopyFSPollStopAll
  dsimp only
  split
  next hid =>
    rw [if_neg (mt h.timerId.mpr hid)] at htimers
    refine ⟨.nil, hlive _ rfl rfl, fun _ hm => absurd hm List.not_mem_nil, h.ids, h.fresh, ?_,
      iff_of_true rfl rfl, h.started, of_track _, htour, h.misuse, hposition⟩
    show s.timers.erase s.timerId = []
    rw [htimers, List.erase_cons_head]
  next hid =>
    have hid : s.timerId = 0 := not_not.mp hid
    rw [if_pos (h.timerId.mp hid)] at htimers
    exact ⟨.nil, hlive _ rfl rfl, fun _ hm => absurd hm List.not_mem_nil, h.ids, h.fresh, htimers,
      iff_of_true hid rfl, h.started, of_track _, htour, h.misuse, hposition⟩

/-! ## The timer callback -/

theorem timer (h : FSPollInv s l todo) :
    FSPollInv
      { s with
        pc := .walk s.entries
        passStart := s.listed
        steady := s.live
        examined := [] } l l where
  chain := h.chain
  live := h.live
  bound := h.bound
  ids := h.ids
  fresh := h.fresh
  timers := h.timers
  timerId := h.timerId
  started m hm := by
    rw [show s.listed = l from h.listed_eq] at hm
    exact h.bound m hm
  steady _ hm := hm
  tour := .init _ h.chain.nodup
  misuse := h.misuse
  position := h.chain.head

/-- What is written to an entry is not its id. -/
theorem update (h : FSPollInv s (rest ++ n :: todo) todo) (newStat : Option Stat) :
    FSPollInv (s.update n newStat) (rest ++ n :: todo) todo := by
  have hid : ∀ m, (Function.update s.entry n ((s.entry n).update newStat) m).id = (s.entry m).id := by
    intro m
    by_cases hm : m = n
    · rw [hm, Function.update_self]
      rfl
    · rw [Function.update_of_ne hm]
  refine ⟨h.chain, h.live, h.bound, fun m k hm hk heq => ?_, fun m hm => ?_, h.timers, h.timerId,
    h.started, h.steady, h.tour, h.misuse, h.chain.next_eq⟩
  · exact h.ids m k hm hk (by rw [← hid m, ← hid k]; exact heq)
  · exact (hid m).trans_lt (h.fresh m hm)

/-- The first entry ahead is examined. -/
theorem examine (h : FSPollInv s l (n :: todo)) (newStat : Option Stat) :
    FSPollInv (s.examine n newStat) l todo := by
  obtain ⟨l₁, rfl⟩ := h.tour.suffix
  have hvisit : ∀ pc, Position (l₁ ++ n :: todo) todo pc → FSPollInv
      { s with
        examined := s.examined ++ [n]
        seen := Function.update s.seen n (s.seen n ++ [newStat])
        reports := Function.update s.reports n (s.reports n ++ [report (s.entry n) newStat])
        pc := pc } (l₁ ++ n :: todo) todo := fun pc hposition =>
    ⟨h.chain, h.live, h.bound, h.ids, h.fresh, h.timers, h.timerId, h.started, h.steady,
      h.tour.visit, h.misuse, hposition⟩
  unfold System.examine
  dsimp only
  split
  · exact hvisit _ ⟨l₁, rfl⟩
  · exact (hvisit (.callback n newStat) ⟨l₁, rfl⟩).update newStat

/-- **One step.** -/
theorem step (h : FSPollInv s l todo) {a : Action} (hok : Spared s a) (hstep : s.step a = some t) :
    ∃ l' todo', FSPollInv t l' todo' := by
  have hposition := h.position
  cases stepped hstep with
  | start path events cb userData newStat timerId =>
    obtain ⟨l', h'⟩ := h.start path events cb userData newStat timerId
    exact ⟨l', todo, h'⟩
  | stop pollId hruns => exact h.stop hruns hok
  | stopAll => exact ⟨_, _, h.stopAll hok⟩
  | timer => exact ⟨_, _, h.timer⟩
  | examine newStat n hpc hn =>
    rw [hpc] at hposition
    obtain ⟨rest, rfl⟩ := exists_of_head? hposition
    exact ⟨_, _, h.examine newStat⟩
  | examineFreed newStat n hpc hfreed =>
    -- the walk is at an entry of the list
    rw [hpc] at hposition
    obtain ⟨rest, rfl⟩ := exists_of_head? hposition
    exact absurd ((h.live n).mpr (h.tour.suffix.mem List.mem_cons_self)) hfreed
  | ret newStat n hpc hn =>
    rw [hpc] at hposition
    obtain ⟨l₁, rfl⟩ := hposition
    exact ⟨_, _, h.update newStat⟩
  | retFreed newStat n hpc hfreed =>
    rw [hpc] at hposition
    obtain ⟨l₁, rfl⟩ := hposition
    exact absurd ((h.live n).mpr (List.mem_append_right l₁ List.mem_cons_self)) hfreed
  | finish hpc =>
    rw [hpc] at hposition
    refine ⟨l, todo, h.chain, h.live, h.bound, h.ids, h.fresh, h.timers, h.timerId, h.started,
      h.steady, h.tour, h.misuse, ?_⟩
    exact List.head?_eq_none_iff.mp (Eq.symm hposition)

end FSPollInv

/-- **The passes are safe** as long as no callback stops its own entry. -/
theorem passes_safe {followSymlinks : Bool} {as : List Action} {s : System}
    (h : Run System.step Spared (.new followSymlinks) as s) : PassLaw s := by
  obtain ⟨l, todo, hs⟩ := h.invariant (P := fun s => ∃ l todo, FSPollInv s l todo)
    (fun s a t hs hok hstep => by
      obtain ⟨l, todo, hs⟩ := hs
      exact hs.step hok hstep)
    ⟨_, _, .new followSymlinks⟩
  exact hs.law

/-- A file of a size. -/
def sized (size : ℤ) : Option Stat := some ⟨100, 0, size, 0o100644#32, 0, 0⟩

/-- Two files are polled, and the size of the second one changes. -/
def secondGrows : List Action :=
  [.start 1 LOOPY_FSPOLL_SIZE 7 70 (sized 0) 9, .start 2 LOOPY_FSPOLL_SIZE 8 80 (sized 0) 4,
    .timer, .examine (sized 5)]

/-- The callback stops the other entry and starts one. -/
def stopOther : List Action :=
  [.stop 1, .start 3 LOOPY_FSPOLL_MODIFIED 9 90 none 4, .ret, .finish]

theorem passes_safe_stopOther :
    ∃ s, Run System.step Spared (.new true) (secondGrows ++ stopOther) s ∧ PassLaw s ∧
      s.pc = .user ∧ s.examined = [1] ∧ s.listed = [2, 1] ∧ s.timers = [9] := by
  have hexec : (exec System.step Spared (.new true) (secondGrows ++ stopOther)).map
      (fun s => (s.pc, s.examined, s.listed, s.timers)) = some (.user, [1], [2, 1], [9]) := by
    decide +kernel
  obtain ⟨s, hrun, hval⟩ := Run.of_exec_map hexec
  obtain ⟨hpc, hval⟩ := Prod.mk.inj hval
  obtain ⟨hexamined, hval⟩ := Prod.mk.inj hval
  obtain ⟨hlisted, htimers⟩ := Prod.mk.inj hval
  exact ⟨s, hrun, passes_safe hrun, hpc, hexamined, hlisted, htimers⟩

/-- A callback that stops its own entry. -/
theorem passes_not_safe :
    ¬ ∀ followSymlinks as s, Run System.step (fun _ _ => True) (.new followSymlinks) as s →
      s.misuse = [] := by
  intro hall
  have hexec : (exec System.step (fun _ _ => True) (.new true)
      (secondGrows ++ [.stop 2, .ret])).map System.misuse = some [.freedEntry 1] := by
    decide +kernel
  obtain ⟨s, hrun, hval⟩ := Run.of_exec_map hexec
  rw [hall _ _ s hrun] at hval
  cases hval

end Loopy.FSPoll
