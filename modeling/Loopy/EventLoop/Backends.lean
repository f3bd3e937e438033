import Loopy.EventLoop.Readiness
import Loopy.Evport.Association
import Loopy.Kqueue.Adapter
import Loopy.Select.Bounds

/-!
# The adapters agree

The epoll, select, kqueue and event-port adapters are honest backends of the event loop, so a user
who meets what they expect cannot tell them apart (`adapters_agree`). What they expect differs:

* the select adapter holds the descriptors below `FD_SETSIZE`;
* the kqueue adapter does not drop both directions at once where only writing is registered, and
  needs a slot for every direction that is ready;
* the event-port adapter drops directions of pending descriptors only, and returns at most
  `MAX_EVENT_BATCHSZ` descriptors.

A kernel lists the ready directions in any order. No descriptor has an error or was hung up.
-/

namespace Loopy.EventLoop

open Loopy.Lib
open Function (update_of_ne update_self)

/-- The ready descriptors, each once. -/
def Ready.fds (ready : Ready) : List ℕ := (ready.map Prod.fst).dedup

theorem Ready.mem_fds {ready : Ready} {fd : ℕ} {dir : Dir} (h : (fd, dir) ∈ ready) :
    fd ∈ ready.fds := List.mem_dedup.mpr (List.mem_map_of_mem (f := Prod.fst) h)

/-- The registered directions that are ready. -/
def ask (events : ℕ → LoopyFileEvent) (ready : Ready) (fd : ℕ) : LoopyAction :=
  (events fd).mask.inter (ready.of fd)

theorem ask_has {events : ℕ → LoopyFileEvent} {ready : Ready} {fd : ℕ} {dir : Dir} :
    (ask events ready fd).has dir = true ↔ (events fd).mask.has dir = true ∧ (fd, dir) ∈ ready := by
  rw [ask, LoopyAction.inter_has, Ready.of_has, Bool.and_eq_true, decide_eq_true_iff]

theorem ask_registered {events : ℕ → LoopyFileEvent} {ready : Ready} {fd : ℕ}
    (h : ask events ready fd ≠ .NONE) : (events fd).mask ≠ .NONE := by
  intro hmask
  apply h
  rw [ask, hmask]
  rfl

/-! ## epoll -/

/-- The epoll adapter. -/
def epollBackend : Backend Epoll.EpollState Bool where
  adapter := Epoll.epollAdapter
  granted := true
  poll := fun ready l s =>
    Epoll.loopyInternalPoll (ready.fds.map fun fd => (fd, Epoll.epollEvents (ready.of fd)))
      l.setSize s
  holds := fun _ => True
  drops := fun _ _ _ _ => True
  fits := fun _ _ => True

theorem firedMask_epollEvents (mask : LoopyAction) :
    Epoll.firedMask (Epoll.epollEvents mask) = mask := by
  obtain ⟨read, write⟩ := mask
  cases read <;> cases write <;> decide

theorem epollEvents_inter (mask ready : LoopyAction) :
    Epoll.epollEvents ready &&& (Epoll.epollEvents mask ||| Epoll.EPOLLERR ||| Epoll.EPOLLHUP) =
      Epoll.epollEvents (mask.inter ready) := by
  obtain ⟨read, write⟩ := mask
  obtain ⟨read', write'⟩ := ready
  cases read <;> cases write <;> cases read' <;> cases write' <;> decide

theorem epollEvents_eq_zero {mask : LoopyAction} : Epoll.epollEvents mask = 0#32 ↔ mask = .NONE := by
  obtain ⟨read, write⟩ := mask
  cases read <;> cases write <;> decide

/-- What the kernel reports of a ready descriptor. -/
theorem epoll_reported {events : ℕ → LoopyFileEvent} {s : Epoll.EpollState}
    (h : Epoll.InterestOk events s) (ready : Ready) (fd : ℕ) :
    Epoll.reported s (fd, Epoll.epollEvents (ready.of fd)) =
      if ask events ready fd = .NONE then none
      else some (fd, Epoll.epollEvents (ask events ready fd)) := by
  simp only [Epoll.reported, h.interest fd, Epoll.interestOf]
  by_cases hmask : (events fd).mask = .NONE
  · have hask : ask events ready fd = .NONE := by
      rw [ask, hmask]
      rfl
    rw [if_pos hmask, if_pos hask]
  · rw [if_neg hmask]
    dsimp only
    rw [epollEvents_inter]
    by_cases hask : ask events ready fd = .NONE
    · rw [if_pos hask]
      exact if_pos (epollEvents_eq_zero.mpr hask)
    · rw [if_neg hask]
      exact if_neg fun hzero => hask (epollEvents_eq_zero.mp hzero)

/-- The events that the kernel has for the loop. -/
theorem epoll_events {events : ℕ → LoopyFileEvent} {s : Epoll.EpollState}
    (h : Epoll.InterestOk events s) (ready : Ready) (fds : List ℕ) :
    (fds.map fun fd => (fd, Epoll.epollEvents (ready.of fd))).filterMap (Epoll.reported s) =
      (fds.filter fun fd => ask events ready fd ≠ .NONE).map
        fun fd => (fd, Epoll.epollEvents (ask events ready fd)) := by
  induction fds with
  | nil => rfl
  | cons fd fds ih =>
    rw [List.map_cons, List.filterMap_cons, epoll_reported h, ih, List.filter_cons]
    by_cases hask : ask events ready fd = .NONE
    · simp [hask]
    · simp [hask]

theorem epoll_honest : Honest epollBackend Epoll.InterestOk where
  fresh n := ⟨fun _ => rfl, fun _ hc => absurd hc List.not_mem_nil⟩
  resize events s n h := h
  grants events s fd mask h := (h.addEvent_spec fd mask true).1
  adds events s fd mask cb clientData h _ hmask := h.addEvent_granted fd mask hmask cb clientData
  deletes events s fd mask h hreg _ := h.delEvent fd mask hreg
  keeps l s ready h := h
  bounded l s ready _ _ := by
    show (List.map _ _).length ≤ _
    rw [List.length_map]
    exact Epoll.epollWait_length s l.setSize _
  reports l s ready ht h _ := by
    -- no event is cut off, for every one is of another registered descriptor
    have hwait : Epoll.epollWait s l.setSize
        (ready.fds.map fun fd => (fd, Epoll.epollEvents (ready.of fd))) =
        (ready.fds.filter fun fd => ask l.events ready fd ≠ .NONE).map
          fun fd => (fd, Epoll.epollEvents (ask l.events ready fd)) := by
      rw [Epoll.epollWait, epoll_events h]
      apply List.take_of_length_le
      rw [List.length_map]
      exact ht.length_le ((List.nodup_dedup _).filter _) fun fd hfd =>
        ask_registered (of_decide_eq_true (List.mem_filter.mp hfd).2)
    refine reported_eq (fun e he dir hdir => ?_) fun fd dir hdir => ?_
    · obtain ⟨e', he', rfl⟩ := List.mem_map.mp he
      rw [hwait] at he'
      obtain ⟨fd, -, rfl⟩ := List.mem_map.mp he'
      rw [firedMask_epollEvents] at hdir
      exact hdir
    · refine ⟨⟨fd, ask l.events ready fd⟩, List.mem_map.mpr ?_, rfl, hdir⟩
      refine ⟨(fd, Epoll.epollEvents (ask l.events ready fd)), ?_, ?_⟩
      · rw [hwait]
        refine List.mem_map.mpr ⟨fd, List.mem_filter.mpr ⟨?_, ?_⟩, rfl⟩
        · exact Ready.mem_fds (ask_has.mp hdir).2
        · exact decide_eq_true (ne_none_of_has dir hdir)
      · simp only [firedMask_epollEvents]

/-! ## select -/

section

open Select

variable (FD_SETSIZE : ℕ)

/-- What `select` returns: nothing if no bit of the first two sets is ready. -/
def selectAnswer (ready : Ready) (maxfd : ℤ) (s : SelectState) : Option (ℕ → LoopyAction) :=
  if ready.any fun e => decide ((e.1 : ℤ) ≤ maxfd) && s.bit FD_SETSIZE (.of e.2) e.1 then
    some ready.of
  else none

/-- The select adapter. -/
def selectBackend : Backend SelectState Unit where
  adapter := selectAdapter FD_SETSIZE
  granted := ()
  poll := fun ready l s =>
    Select.loopyInternalPoll FD_SETSIZE (selectAnswer FD_SETSIZE ready l.maxfd s) l.events l.maxfd s
  holds := fun fd => fd < FD_SETSIZE
  drops := fun _ _ _ _ => True
  fits := fun _ _ => True

variable {FD_SETSIZE}

/-- The entries that the loop over the descriptors writes. -/
theorem collect_eq (events : ℕ → LoopyFileEvent) (js : List ℕ) (s : SelectState) :
    (collect FD_SETSIZE events js s).1 = (js.filter fun j => (events j).mask ≠ .NONE).map
      fun j => ⟨j, (events j).mask.inter
        ⟨s.bit FD_SETSIZE .rfdsCopy j, s.bit FD_SETSIZE .wfdsCopy j⟩⟩ := by
  induction js generalizing s with
  | nil => rfl
  | cons j js ih =>
    rw [collect, List.filter_cons]
    by_cases hmask : (events j).mask = .NONE
    · simp only [hmask, if_true, ne_eq, not_true_eq_false, decide_false, Bool.false_eq_true,
        if_false]
      exact ih s
    · simp only [hmask, if_false, ne_eq, not_false_eq_true, decide_true, if_true, List.map_cons]
      -- `FD_ISSET` only reads the sets
      cases hread : (events j).mask.read <;> cases hwrite : (events j).mask.write <;>
        simp [ih, FD_ISSET, SelectState.bit, LoopyAction.inter, hread, hwrite]

theorem memcpy_bit (s : SelectState) {fd : ℕ} (hfd : fd < FD_SETSIZE) (dst src set : FdSet) :
    (memcpy FD_SETSIZE dst src s).bit FD_SETSIZE set fd =
      if set = dst then s.bit FD_SETSIZE src fd else s.bit FD_SETSIZE set fd := by
  show (if dst.offset FD_SETSIZE ≤ set.offset FD_SETSIZE + fd ∧
      set.offset FD_SETSIZE + fd < dst.offset FD_SETSIZE + FD_SETSIZE then
    s.bit FD_SETSIZE src (set.offset FD_SETSIZE + fd - dst.offset FD_SETSIZE) else _) = _
  by_cases heq : set = dst
  · rw [heq, if_pos ⟨by omega, by omega⟩, if_pos rfl, Nat.add_sub_cancel_left]
  · rw [if_neg, if_neg heq]
    · rfl
    · cases set <;> cases dst <;> simp only [FdSet.offset] <;> first | exact absurd rfl heq | omega

/-- `select` leaves the bits that are ready. -/
theorem select_bit (s : SelectState) (ready : ℕ → LoopyAction) {nfds fd : ℕ} (hfd : fd < FD_SETSIZE)
    (hnfds : fd < nfds) :
    (select FD_SETSIZE nfds ready s).bit FD_SETSIZE .rfdsCopy fd =
        (s.bit FD_SETSIZE .rfdsCopy fd && (ready fd).read) ∧
      (select FD_SETSIZE nfds ready s).bit FD_SETSIZE .wfdsCopy fd =
        (s.bit FD_SETSIZE .wfdsCopy fd && (ready fd).write) := by
  constructor
  · have hreads : ¬ (FdSet.wfdsCopy.offset FD_SETSIZE ≤ FdSet.rfdsCopy.offset FD_SETSIZE + fd ∧
        FdSet.rfdsCopy.offset FD_SETSIZE + fd < FdSet.wfdsCopy.offset FD_SETSIZE + nfds) := by
      simp only [FdSet.offset]
      omega
    rw [SelectState.bit, select]
    dsimp only
    rw [if_neg hreads, if_pos ⟨by omega, by omega⟩, Nat.add_sub_cancel_left]
    rfl
  · rw [SelectState.bit, select]
    dsimp only
    rw [if_pos ⟨by omega, by omega⟩, Nat.add_sub_cancel_left]
    rfl

/-- The copies of the sets after a poll. -/
theorem select_bits (s : SelectState) (ready : ℕ → LoopyAction) {nfds fd : ℕ} (hfd : fd < FD_SETSIZE)
    (hnfds : fd < nfds) :
    let s' := select FD_SETSIZE nfds ready
      (memcpy FD_SETSIZE .wfdsCopy .wfds (memcpy FD_SETSIZE .rfdsCopy .rfds s))
    s'.bit FD_SETSIZE .rfdsCopy fd = (s.bit FD_SETSIZE .rfds fd && (ready fd).read) ∧
      s'.bit FD_SETSIZE .wfdsCopy fd = (s.bit FD_SETSIZE .wfds fd && (ready fd).write) := by
  obtain ⟨hread, hwrite⟩ := select_bit
    (memcpy FD_SETSIZE .wfdsCopy .wfds (memcpy FD_SETSIZE .rfdsCopy .rfds s)) ready hfd hnfds
  refine ⟨hread.trans ?_, hwrite.trans ?_⟩ <;> simp [memcpy_bit _ hfd]

/-- The entries of a poll are the registered directions that are ready. -/
theorem select_fired {l : LoopyLoop SelectState} {s : SelectState} (h : Kept FD_SETSIZE l.events s)
    (ready : Ready) {fd : ℕ} (hmask : (l.events fd).mask ≠ .NONE) (hmax : (fd : ℤ) ≤ l.maxfd) :
    let s' := select FD_SETSIZE (l.maxfd + 1).toNat ready.of
      (memcpy FD_SETSIZE .wfdsCopy .wfds (memcpy FD_SETSIZE .rfdsCopy .rfds s))
    (l.events fd).mask.inter ⟨s'.bit FD_SETSIZE .rfdsCopy fd, s'.bit FD_SETSIZE .wfdsCopy fd⟩ =
      ask l.events ready fd := by
  have hlt := h.lt hmask
  have hnfds : fd < (l.maxfd + 1).toNat := by omega
  obtain ⟨hread, hwrite⟩ := select_bits s ready.of hlt hnfds
  have hbits : ∀ dir, (l.events fd).mask.has dir = s.bit FD_SETSIZE (.of dir) fd := by
    intro dir
    rw [h.bits dir fd, decide_eq_true hlt, Bool.true_and]
  dsimp only
  rw [hread, hwrite, show s.bit FD_SETSIZE .rfds fd = _ from (hbits .read).symm,
    show s.bit FD_SETSIZE .wfds fd = _ from (hbits .write).symm]
  simp [ask, LoopyAction.inter, LoopyAction.has]

theorem le_maxfd {σ : Type} {l : LoopyLoop σ} (ht : TableInv l) {fd : ℕ}
    (hmask : (l.events fd).mask ≠ .NONE) : (fd : ℤ) ≤ l.maxfd := by
  rcases ht.maxfdOk with ⟨-, hnone⟩ | ⟨m, hm, -, hall⟩
  · exact absurd (hnone fd) hmask
  · have hle := hall fd hmask
    omega

/-- Where `select` returns nothing, nothing is asked for. -/
theorem selectAnswer_none {l : LoopyLoop SelectState} {s : SelectState} (ht : TableInv l)
    (h : Kept FD_SETSIZE l.events s) {ready : Ready}
    (hnone : selectAnswer FD_SETSIZE ready l.maxfd s = none) {fd : ℕ} {dir : Dir} :
    (ask l.events ready fd).has dir = false := by
  by_contra hask
  rw [Bool.not_eq_false, ask_has] at hask
  obtain ⟨hhas, hready⟩ := hask
  have hmask := ne_none_of_has dir hhas
  -- the bit of a registered direction is set, and makes `select` return
  have hbit := h.bits dir fd
  rw [hhas, decide_eq_true (h.lt hmask), Bool.true_and] at hbit
  rw [selectAnswer, if_pos] at hnone
  · cases hnone
  · rw [List.any_eq_true]
    refine ⟨(fd, dir), hready, ?_⟩
    rw [decide_eq_true (le_maxfd ht hmask), ← hbit]
    rfl

theorem select_honest (FD_SETSIZE : ℕ) : Honest (selectBackend FD_SETSIZE) (Kept FD_SETSIZE) where
  fresh n := by
    refine ⟨fun fd hin => ?_, fun dir fd => ?_⟩
    · cases hin
    · cases dir <;> exact (Bool.and_false _).symm
  resize events s n h := by
    have hsame : (Select.loopyInternalResize FD_SETSIZE s n).2 = s := by
      unfold Select.loopyInternalResize
      split <;> rfl
    show Kept FD_SETSIZE events (Select.loopyInternalResize FD_SETSIZE s n).2
    rw [hsame]
    exact h
  grants events s fd mask h := rfl
  adds events s fd mask cb clientData h hfd hmask := h.registered hfd hmask cb clientData
  deletes events s fd mask h hreg _ := h.unregistered hreg mask
  keeps l s ready h := h.polled (.poll FD_SETSIZE l.events s _ l.maxfd)
  bounded l s ready ht _ := by
    have hmax := ht.sized.maxfd_lt
    show (Select.loopyInternalPoll _ _ _ _ _).1.length ≤ _
    unfold Select.loopyInternalPoll
    cases selectAnswer FD_SETSIZE ready l.maxfd s with
    | none => exact Nat.zero_le _
    | some answer =>
      have hle := List.length_filter_le (fun j => decide ((l.events j).mask ≠ .NONE))
        (List.range (l.maxfd + 1).toNat)
      simp only [collect_eq, List.length_map, List.length_range] at hle ⊢
      omega
  reports l s ready ht h _ := by
    cases hanswer : selectAnswer FD_SETSIZE ready l.maxfd s with
    | none =>
      refine reported_eq (fun e he => ?_) fun fd dir hdir => ?_
      · simp only [selectBackend, hanswer, Select.loopyInternalPoll] at he
        cases he
      · have hnone : (ask l.events ready fd).has dir = false := selectAnswer_none ht h hanswer
        cases hnone.symm.trans hdir
    | some answer =>
      have hready : answer = ready.of := by
        unfold selectAnswer at hanswer
        split at hanswer
        · exact (Option.some.inj hanswer).symm
        · cases hanswer
      have hfired : ((selectBackend FD_SETSIZE).poll ready l s).1 =
          ((List.range (l.maxfd + 1).toNat).filter fun fd => (l.events fd).mask ≠ .NONE).map
            fun fd => ⟨fd, ask l.events ready fd⟩ := by
        simp only [selectBackend, hanswer, Select.loopyInternalPoll, hready, collect_eq]
        apply List.map_congr_left
        intro fd hfd
        have hmask := of_decide_eq_true (List.mem_filter.mp hfd).2
        rw [select_fired h ready hmask (le_maxfd ht hmask)]
      rw [hfired]
      refine reported_eq (fun e he dir hdir => ?_) fun fd dir hdir => ?_
      · obtain ⟨fd, -, rfl⟩ := List.mem_map.mp he
        exact hdir
      · have hmask := ask_registered (ne_none_of_has dir hdir)
        have hmax := le_maxfd ht hmask
        refine ⟨_, List.mem_map.mpr ⟨fd, List.mem_filter.mpr ⟨?_, decide_eq_true hmask⟩, rfl⟩, rfl,
          hdir⟩
        rw [List.mem_range]
        omega

end

/-! ## kqueue -/

section

open Kqueue

/-- The filter of a direction. -/
def filterOf : Dir → Filter
  | .read => .READ
  | .write => .WRITE

/-- The kqueue adapter. -/
def kqueueBackend : Backend KqueueState Unit where
  adapter := kqueueAdapter
  granted := ()
  poll := fun ready l s =>
    Kqueue.loopyInternalPoll (ready.map fun e => (e.1, filterOf e.2)) l.setSize s
  holds := fun _ => True
  drops := fun events _ fd mask => ¬ (mask = .ALL ∧ (events fd).mask = .WRITE)
  fits := fun ready l => (ready.filter fun e => (l.events e.1).mask.has e.2).length ≤ l.setSize

theorem firedMask_filterOf (dir dir' : Dir) :
    (Kqueue.firedMask (filterOf dir)).has dir' = decide (dir = dir') := by
  cases dir <;> cases dir' <;> rfl

theorem filters_eq {events : ℕ → LoopyFileEvent} {s : KqueueState} (h : InterestLaw events s)
    (fd : ℕ) (dir : Dir) : s.filters fd (filterOf dir) = (events fd).mask.has dir := by
  rw [h fd]
  cases dir <;> rfl

/-- The events of a poll. -/
theorem keventWait_eq {events : ℕ → LoopyFileEvent} {s : KqueueState} (h : InterestLaw events s)
    (ready : Ready) (n : ℕ) :
    keventWait s n (ready.map fun e => (e.1, filterOf e.2)) =
      ((ready.filter fun e => (events e.1).mask.has e.2).map fun e => (e.1, filterOf e.2)).take n := by
  rw [keventWait, List.filter_map]
  congr 3
  funext e
  exact filters_eq h e.1 e.2

theorem kqueue_honest : Honest kqueueBackend InterestLaw where
  fresh n fd := by
    funext f
    cases f <;> rfl
  resize events s n h := h
  grants events s fd mask h := (addEvent_spec s fd mask).1
  adds events s fd mask cb clientData h _ _ := by
    refine h.update (addEvent_spec s fd mask).2 ?_
    funext f
    rw [h fd]
    cases f <;> rfl
  deletes events s fd mask h _ hdrops := h.update (delEvent_spec (h fd) mask hdrops) rfl
  keeps l s ready h := h
  bounded l s ready _ _ := by
    show (List.map _ (List.take _ _)).length ≤ _
    rw [List.length_map, List.length_take]
    exact min_le_left _ _
  reports l s ready _ h hfits := by
    have hwait : keventWait s l.setSize (ready.map fun e => (e.1, filterOf e.2)) =
        (ready.filter fun e => (l.events e.1).mask.has e.2).map fun e => (e.1, filterOf e.2) := by
      rw [keventWait_eq h]
      apply List.take_of_length_le
      rw [List.length_map]
      exact hfits
    have hfired : (kqueueBackend.poll ready l s).1 =
        (ready.filter fun e => (l.events e.1).mask.has e.2).map
          fun e => ⟨e.1, Kqueue.firedMask (filterOf e.2)⟩ := by
      simp only [kqueueBackend, Kqueue.loopyInternalPoll, hwait, List.map_map]
      rfl
    rw [hfired]
    refine reported_eq (fun e he dir hdir => ?_) fun fd dir hdir => ?_
    · obtain ⟨⟨fd, dir'⟩, hin, rfl⟩ := List.mem_map.mp he
      rw [firedMask_filterOf, decide_eq_true_iff] at hdir
      obtain rfl := hdir
      obtain ⟨hready, hhas⟩ := List.mem_filter.mp hin
      exact ask_has.mpr ⟨hhas, hready⟩
    · obtain ⟨hhas, hready⟩ := ask_has.mp hdir
      refine ⟨_, List.mem_map.mpr ⟨(fd, dir), List.mem_filter.mpr ⟨hready, hhas⟩, rfl⟩, rfl, ?_⟩
      rw [firedMask_filterOf, decide_eq_true_iff]

end

/-! ## Event ports -/

section

open Evport

/-- `POLLIN` and `POLLOUT` for a mask. -/
def pollEvents (mask : LoopyAction) : BitVec 32 :=
  let events := 0#32
  let events := if mask.read then events ||| POLLIN else events
  if mask.write then events ||| POLLOUT else events

/-- What the adapter associates again before it calls `port_getn`. -/
def restored (s : EvportState) : EvportState := (List.range s.npending).foldl reassociate s

/-- The descriptors that have events for `port_getn`. -/
def evportReady (ready : Ready) (s : EvportState) : List (ℕ × BitVec 32) :=
  (ready.fds.map fun fd => (fd, pollEvents (ready.of fd))).filter fun e =>
    ((restored s).port e.1).any fun a => e.2 &&& (a.events ||| pollErrors) ≠ 0#32

/-- The event-port adapter. -/
def evportBackend : Backend EvportState Unit where
  adapter := evportAdapter
  granted := ()
  poll := fun ready _ s => Evport.loopyInternalPoll (evportReady ready s) s
  holds := fun _ => True
  drops := fun events s fd mask =>
    loopyInternalLookupPending s fd = none → (events fd).mask.diff mask = (events fd).mask
  fits := fun ready l =>
    (ready.fds.filter fun fd => ask l.events ready fd ≠ .NONE).length ≤ MAX_EVENT_BATCHSZ

/-- Associations ask for the events of their masks. -/
def Described (s : EvportState) : Prop := ∀ fd a, s.port fd = some a → a.events = pollEvents a.user

theorem Described.associate {s : EvportState} (h : Described s) (fd : ℕ) (mask : LoopyAction) :
    Described (loopyInternalAssociate s fd mask) := by
  intro fd' a hport
  by_cases heq : fd' = fd
  · rw [loopyInternalAssociate, heq] at hport
    dsimp only at hport
    rw [update_self] at hport
    cases hport
    rfl
  · apply h fd'
    rw [loopyInternalAssociate] at hport
    dsimp only at hport
    rwa [update_of_ne heq] at hport

theorem Described.dissociate {s : EvportState} (h : Described s) (fd : ℕ) :
    Described (portDissociate s fd) := by
  intro fd' a hport
  by_cases heq : fd' = fd
  · rw [portDissociate, heq] at hport
    dsimp only at hport
    rw [update_self] at hport
    cases hport
  · apply h fd'
    rw [portDissociate] at hport
    dsimp only at hport
    rwa [update_of_ne heq] at hport

theorem Described.restored {s : EvportState} (h : Described s) : Described (restored s) := by
  refine List.foldlRecOn _ _ h fun s h i _ => ?_
  unfold reassociate
  split
  · exact h
  · exact h.associate _ _

theorem Described.getn {s : EvportState} (h : Described s) (ready : List (ℕ × BitVec 32)) :
    Described (portGetn ready s).2 := by
  induction ready generalizing s with
  | nil => exact h
  | cons e ready ih =>
    obtain ⟨fd, events⟩ := e
    cases hport : s.port fd with
    | none =>
      simp only [portGetn, hport]
      exact ih h
    | some a =>
      simp only [portGetn, hport]
      exact ih (h.dissociate fd)

/-- What `port_getn` returns, each descriptor of the list being listed once. -/
theorem mem_portGetn {ready : List (ℕ × BitVec 32)} (hnodup : (ready.map Prod.fst).Nodup)
    (s : EvportState) (e : PortEvent) :
    e ∈ (portGetn ready s).1 ↔ ∃ r ∈ ready, ∃ a, s.port r.1 = some a ∧
      e = ⟨r.1, r.2 &&& (a.events ||| pollErrors), a.user⟩ := by
  induction ready generalizing s with
  | nil => simp [portGetn]
  | cons r ready ih =>
    obtain ⟨fd, events⟩ := r
    obtain ⟨hfd, hnodup⟩ := List.nodup_cons.mp hnodup
    cases hport : s.port fd with
    | none => simp [portGetn, hport, ih hnodup]
    | some a =>
      simp only [portGetn, hport, List.mem_cons, ih hnodup, exists_eq_or_imp, Option.some.injEq,
        exists_eq_left']
      -- what follows in the list is of other descriptors
      have hother : ∀ r ∈ ready, (portDissociate s fd).port r.1 = s.port r.1 := by
        intro r hr
        refine update_of_ne (fun heq => hfd ?_) _ _
        exact List.mem_map.mpr ⟨r, hr, heq⟩
      constructor
      · rintro (heq | ⟨r, hr, a', ha', heq⟩)
        · exact .inl heq
        · exact .inr ⟨r, hr, a', hother r hr ▸ ha', heq⟩
      · rintro (heq | ⟨r, hr, a', ha', heq⟩)
        · exact .inl heq
        · exact .inr ⟨r, hr, a', (hother r hr).trans ha', heq⟩

/-- The association law, and what the associations ask for. -/
structure EvportLaw (events : ℕ → LoopyFileEvent) (s : EvportState) : Prop where
  inv : AdapterInv events s
  described : Described s

/-- Before `port_getn` the kernel holds every registered descriptor with its mask. -/
theorem EvportLaw.kernel {events : ℕ → LoopyFileEvent} {s : EvportState} (h : EvportLaw events s)
    (fd : ℕ) : (restored s).port fd =
      if (events fd).mask = .NONE then none
      else some ⟨pollEvents (events fd).mask, (events fd).mask⟩ := by
  have hloop := Restoring.loop
    ⟨h.inv.law, h.inv.fds, rfl, fun j hj => absurd hj (Nat.not_lt_zero j)⟩
  -- every pending descriptor is associated again, and no slot is left
  have hslots : (restored s).slots fd = [] := by
    rw [List.eq_nil_iff_forall_not_mem]
    intro i hi
    obtain ⟨hlt, hfd⟩ := mem_slots.mp hi
    have hdone := hloop.done i (hloop.npending ▸ hlt)
    rw [show (restored s).pendingFds i = -1 from hdone] at hfd
    omega
  have hlaw : (restored s).represented fd = once (events fd).mask := hloop.law fd
  rw [EvportState.represented, hslots, List.map_nil, List.append_nil] at hlaw
  have hdescribed := h.described.restored fd
  cases hport : (restored s).port fd with
  | none =>
    rw [hport, once] at hlaw
    split at hlaw
    case isTrue hmask => rw [if_pos hmask]
    case isFalse => cases hlaw
  | some a =>
    have ha := hdescribed a hport
    rw [hport, once] at hlaw
    split at hlaw
    case isTrue => cases hlaw
    case isFalse hmask =>
      obtain ⟨aevents, user⟩ := a
      obtain ⟨huser, -⟩ := List.cons.inj hlaw
      have huser' : user = (events fd).mask := huser
      rw [if_neg hmask, ← huser', ← show aevents = pollEvents user from ha]

theorem pollEvents_zero {mask ready : LoopyAction} :
    pollEvents ready &&& (pollEvents mask ||| pollErrors) = 0#32 ↔ mask.inter ready = .NONE := by
  obtain ⟨read, write⟩ := mask
  obtain ⟨read', write'⟩ := ready
  cases read <;> cases write <;> cases read' <;> cases write' <;> decide

theorem firedMask_pollEvents (mask ready : LoopyAction) :
    Evport.firedMask (pollEvents ready &&& (pollEvents mask ||| pollErrors)) = mask.inter ready := by
  obtain ⟨read, write⟩ := mask
  obtain ⟨read', write'⟩ := ready
  cases read <;> cases write <;> cases read' <;> cases write' <;> decide

/-- The descriptors with events are those of which something is asked. -/
theorem EvportLaw.ready {events : ℕ → LoopyFileEvent} {s : EvportState} (h : EvportLaw events s)
    (ready : Ready) :
    evportReady ready s = (ready.fds.filter fun fd => ask events ready fd ≠ .NONE).map
      fun fd => (fd, pollEvents (ready.of fd)) := by
  rw [evportReady, List.filter_map]
  congr 2
  funext fd
  show Option.any _ ((restored s).port fd) = _
  rw [h.kernel]
  by_cases hmask : (events fd).mask = .NONE
  · have hask : ask events ready fd = .NONE := by
      rw [ask, hmask]
      rfl
    rw [if_pos hmask, hask]
    rfl
  · rw [if_neg hmask]
    show decide (_ ≠ _) = decide (_ ≠ _)
    rw [decide_eq_decide]
    exact not_congr pollEvents_zero

theorem evport_honest : Honest evportBackend EvportLaw where
  fresh n := ⟨⟨fun _ => rfl, fun _ => .inl rfl⟩, fun _ _ hport => nomatch hport⟩
  resize events s n h := h
  grants events s fd mask h := (addEvent_pendingFds events s fd mask).1
  adds events s fd mask cb clientData h _ hmask := by
    refine ⟨⟨h.inv.law.addEvent fd hmask cb clientData, fun j => ?_⟩, ?_⟩
    · have hfds := congrFun (addEvent_pendingFds events s fd mask).2 j
      rcases h.inv.fds j with hj | hj
      · exact .inl (hfds.trans hj)
      · exact .inr (hj.trans hfds.ge)
    · show Described (Evport.loopyInternalAddEvent events s fd mask).2
      unfold Evport.loopyInternalAddEvent
      cases loopyInternalLookupPending s fd with
      | some i => exact h.described
      | none => exact h.described.associate _ _
  deletes events s fd mask h hreg hdrops := by
    refine ⟨⟨h.inv.law.delEvent fd mask hreg hdrops, fun j => ?_⟩, ?_⟩
    · rcases delEvent_pendingFds events s fd mask j with hj | hj
      · exact .inl hj
      · rcases h.inv.fds j with hold | hold
        · exact .inl (hj.trans hold)
        · exact .inr (hold.trans hj.ge)
    · show Described (Evport.loopyInternalDelEvent events s fd mask)
      unfold Evport.loopyInternalDelEvent
      cases loopyInternalLookupPending s fd with
      | some i =>
        dsimp only
        split
        · exact h.described
        · exact h.described
      | none =>
        dsimp only
        split
        · exact h.described.dissociate fd
        · exact h.described.associate _ _
  keeps l s ready h := by
    refine ⟨(h.inv.poll _).1, ?_⟩
    exact Described.getn (s := { restored s with npending := 0 }) h.described.restored _
  bounded l s ready ht h := by
    obtain ⟨-, hnodup, hreg⟩ := h.inv.poll (evportReady ready s)
    exact fired_length_le ht hnodup hreg
  reports l s ready _ h hfits := by
    -- no descriptor is cut off
    have htake : (evportReady ready s).take MAX_EVENT_BATCHSZ = evportReady ready s := by
      apply List.take_of_length_le
      rw [h.ready, List.length_map]
      exact hfits
    have hfired : (evportBackend.poll ready l s).1 =
        (portGetn (evportReady ready s) { restored s with npending := 0 }).1.map
          fun e => ⟨e.object, Evport.firedMask e.events⟩ := by
      simp only [evportBackend, Evport.loopyInternalPoll, htake]
      rfl
    -- a descriptor is listed once, so no entry before it has dissociated it
    have hnodup : ((evportReady ready s).map Prod.fst).Nodup := by
      rw [h.ready, List.map_map]
      exact (List.map_id _).symm ▸ (List.nodup_dedup _).filter _
    rw [hfired]
    refine reported_eq (fun e he dir hdir => ?_) fun fd dir hdir => ?_
    · obtain ⟨pe, hpe, rfl⟩ := List.mem_map.mp he
      obtain ⟨r, hr, a, hport, rfl⟩ := (mem_portGetn hnodup _ pe).mp hpe
      rw [h.ready] at hr
      obtain ⟨fd, hfd, rfl⟩ := List.mem_map.mp hr
      have hmask := ask_registered (of_decide_eq_true (List.mem_filter.mp hfd).2)
      have hkernel := h.kernel fd
      rw [if_neg hmask] at hkernel
      obtain rfl := Option.some.inj (hport.symm.trans hkernel)
      rw [firedMask_pollEvents] at hdir
      exact hdir
    · have hask := ne_none_of_has dir hdir
      have hkernel := h.kernel fd
      rw [if_neg (ask_registered hask)] at hkernel
      refine ⟨_, List.mem_map.mpr ⟨_, (mem_portGetn hnodup _ _).mpr
        ⟨(fd, pollEvents (ready.of fd)), ?_, _, hkernel, rfl⟩, rfl⟩, rfl, ?_⟩
      · rw [h.ready]
        refine List.mem_map.mpr ⟨fd, List.mem_filter.mpr ⟨?_, decide_eq_true hask⟩, rfl⟩
        exact Ready.mem_fds (ask_has.mp hdir).2
      · rw [firedMask_pollEvents]
        exact hdir

end

/-! ## Agreement -/

/-- An honest backend is the loop without a kernel, over whole runs. -/
theorem Honest.run {σ ε : Type} {B : Backend σ ε} {K : (ℕ → LoopyFileEvent) → σ → Prop}
    (h : Honest B K) {n addr : ℕ} (hn : 1 ≤ n) (hn31 : n < 2 ^ 31) {ops : List Operation}
    {l : LoopyLoop σ} (hrun : Run (silent B.perform) B.Admits (.fresh B.adapter n addr) ops l) :
    answers B.perform (.fresh B.adapter n addr) ops =
        answers plainPerform (.fresh plainAdapter n addr) ops ∧
      exec (silent plainPerform) (fun _ _ => True) (.fresh plainAdapter n addr) ops = some l.plain := by
  obtain ⟨hanswers, hplain⟩ := hrun.answers_eq h.answersPlain (.fresh h hn hn31 addr)
  exact ⟨hanswers, Run.iff_exec.mp hplain⟩

/-- **The adapters agree.** The same operations are performed on four loops of `n` descriptors, one
on each adapter, and each adapter finds what it expects. Then all four give the same answers: those
of the loop without a kernel, where every registration is granted and every poll reports of every
descriptor the registered directions that are ready. In the end the four loops are the same, but for
the kernel and the entries of the last poll. -/
theorem adapters_agree (FD_SETSIZE n : ℕ) (hn : 1 ≤ n) (hn31 : n < 2 ^ 31) (addr : ℕ)
    (ops : List Operation) (e : LoopyLoop Epoll.EpollState) (s : LoopyLoop Select.SelectState)
    (k : LoopyLoop Kqueue.KqueueState) (v : LoopyLoop Evport.EvportState)
    (he : Run (silent epollBackend.perform) epollBackend.Admits
      (.fresh epollBackend.adapter n addr) ops e)
    (hs : Run (silent (selectBackend FD_SETSIZE).perform) (selectBackend FD_SETSIZE).Admits
      (.fresh (selectBackend FD_SETSIZE).adapter n addr) ops s)
    (hk : Run (silent kqueueBackend.perform) kqueueBackend.Admits
      (.fresh kqueueBackend.adapter n addr) ops k)
    (hv : Run (silent evportBackend.perform) evportBackend.Admits
      (.fresh evportBackend.adapter n addr) ops v) :
    let plain := answers plainPerform (.fresh plainAdapter n addr) ops
    answers epollBackend.perform (.fresh epollBackend.adapter n addr) ops = plain ∧
      answers (selectBackend FD_SETSIZE).perform (.fresh (selectBackend FD_SETSIZE).adapter n addr)
        ops = plain ∧
      answers kqueueBackend.perform (.fresh kqueueBackend.adapter n addr) ops = plain ∧
      answers evportBackend.perform (.fresh evportBackend.adapter n addr) ops = plain ∧
      s.plain = e.plain ∧ k.plain = e.plain ∧ v.plain = e.plain := by
  obtain ⟨heanswers, heend⟩ := epoll_honest.run hn hn31 he
  obtain ⟨hsanswers, hsend⟩ := (select_honest FD_SETSIZE).run hn hn31 hs
  obtain ⟨hkanswers, hkend⟩ := kqueue_honest.run hn hn31 hk
  obtain ⟨hvanswers, hvend⟩ := evport_honest.run hn hn31 hv
  exact ⟨heanswers, hsanswers, hkanswers, hvanswers, Option.some.inj (hsend.symm.trans heend),
    Option.some.inj (hkend.symm.trans heend), Option.some.inj (hvend.symm.trans heend)⟩

instance (l : LoopyLoop Epoll.EpollState) : (op : Operation) → Decidable (epollBackend.Admits l op)
  | .call _ _ => isTrue ⟨fun _ _ => trivial, fun _ _ _ _ => trivial⟩
  | .poll _ => isTrue trivial

instance (FD_SETSIZE : ℕ) (l : LoopyLoop Select.SelectState) :
    (op : Operation) → Decidable ((selectBackend FD_SETSIZE).Admits l op)
  | .call c _ => decidable_of_iff (∀ r ∈ c.registration, r.fd.toNat < FD_SETSIZE)
      ⟨fun h => ⟨h, fun _ _ _ _ => trivial⟩, And.left⟩
  | .poll _ => isTrue trivial

instance (l : LoopyLoop Kqueue.KqueueState) :
    (op : Operation) → Decidable (kqueueBackend.Admits l op)
  | .call c _ => decidable_of_iff (∀ d ∈ c.unregistration, ∀ _s ∈ l.state,
      ¬ (d.2 = .ALL ∧ (l.events d.1.toNat).mask = .WRITE))
      ⟨fun h => ⟨fun _ _ => trivial, h⟩, And.right⟩
  | .poll _ => inferInstanceAs (Decidable (_ ≤ _))

instance (l : LoopyLoop Evport.EvportState) :
    (op : Operation) → Decidable (evportBackend.Admits l op)
  | .call c _ => decidable_of_iff (∀ d ∈ c.unregistration, ∀ s ∈ l.state,
      Evport.loopyInternalLookupPending s d.1.toNat = none →
        (l.events d.1.toNat).mask.diff d.2 = (l.events d.1.toNat).mask)
      ⟨fun h => ⟨fun _ _ => trivial, h⟩, And.right⟩
  | .poll _ => inferInstanceAs (Decidable (_ ≤ _))

/-- Two descriptors are registered and ready, in an order that is not theirs; one of them is
unregistered before the next poll. -/
def fourLoops : List Operation :=
  [.call (.registerRead 3 5 9) 2, .call (.registerWrite 3 6 9) 2, .call (.registerWrite 4 7 9) 2,
    .poll [(4, .write), (3, .write), (5, .read), (3, .read)], .call (.unregisterReadWrite 3) 2,
    .poll [(3, .read), (4, .write)]]

theorem adapters_agree_fourLoops :
    ∃ e s k v, Run (silent epollBackend.perform) epollBackend.Admits
        (.fresh epollBackend.adapter 16 1) fourLoops e ∧
      Run (silent (selectBackend 1024).perform) (selectBackend 1024).Admits
        (.fresh (selectBackend 1024).adapter 16 1) fourLoops s ∧
      Run (silent kqueueBackend.perform) kqueueBackend.Admits
        (.fresh kqueueBackend.adapter 16 1) fourLoops k ∧
      Run (silent evportBackend.perform) evportBackend.Admits
        (.fresh evportBackend.adapter 16 1) fourLoops v ∧
      s.plain = e.plain ∧ k.plain = e.plain ∧ v.plain = e.plain ∧ e.maxfd = 4 := by
  have he : (exec (silent epollBackend.perform) epollBackend.Admits
      (.fresh epollBackend.adapter 16 1) fourLoops).map (·.maxfd) = some 4 := by decide +kernel
  have hs : (exec (silent (selectBackend 1024).perform) (selectBackend 1024).Admits
      (.fresh (selectBackend 1024).adapter 16 1) fourLoops).map (·.maxfd) = some 4 := by
    decide +kernel
  have hk : (exec (silent kqueueBackend.perform) kqueueBackend.Admits
      (.fresh kqueueBackend.adapter 16 1) fourLoops).map (·.maxfd) = some 4 := by decide +kernel
  have hv : (exec (silent evportBackend.perform) evportBackend.Admits
      (.fresh evportBackend.adapter 16 1) fourLoops).map (·.maxfd) = some 4 := by decide +kernel
  obtain ⟨e, he, hmax⟩ := Run.of_exec_map he
  obtain ⟨s, hs, -⟩ := Run.of_exec_map hs
  obtain ⟨k, hk, -⟩ := Run.of_exec_map hk
  obtain ⟨v, hv, -⟩ := Run.of_exec_map hv
  obtain ⟨-, -, -, -, hse, hke, hve⟩ :=
    adapters_agree 1024 16 (by decide) (by decide) 1 fourLoops e s k v he hs hk hv
  exact ⟨e, s, k, v, he, hs, hk, hv, hse, hke, hve, hmax⟩

end Loopy.EventLoop
