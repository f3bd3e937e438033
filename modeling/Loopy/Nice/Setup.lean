import Mathlib.Data.List.Nodup
import Mathlib.Data.List.Perm.Subperm
import Loopy.Nice.Servers

/-!
# All or nothing

`loopyNiceServerListenToSockets` begins with `true` and joins the answers of the loop by `or`, and
`loopyNiceServerCreateSocketsAndListen` does not look at its result: a server whose socket the loop
has refused is reported to listen. Descriptors stay open when the first socket of a pair cannot be
made non-blocking, when an option of `loopyNetListen` fails, and when a socket is lost because of an
old `errno`; and nobody looks whether there is an eventfd. `all_or_nothing_iff` says when the setup is
all or nothing.
-/

namespace Loopy.Nice

open Loopy.Net
open Function (update update_of_ne update_self)

/-! ## The promise -/

namespace LoopyNiceServerDesc

/-- The sockets that are read: not the end of a pipe that is written to. -/
def served (sd : LoopyNiceServerDesc) : List (Option ℕ) :=
  if sd.useSocketPair then [sd.socketpairFd 0, sd.socketpairFd 1]
  else if sd.usePipe then [sd.readFd]
  else if sd.path then [sd.domainFd]
  else if sd.bindAddr.isSome then [sd.listen 0]
  else [sd.listen 0, sd.listen 1]

/-- The sockets of the descriptor. -/
def sockets (sd : LoopyNiceServerDesc) : List (Option ℕ) :=
  if !sd.useSocketPair && sd.usePipe then [sd.readFd, sd.writeFd] else sd.served

end LoopyNiceServerDesc

/-- Each descriptor that has been opened since `s` has been closed exactly once. -/
def Dropped (s s' : LoopyNice) : Prop :=
  ∀ n, s.net.count ≤ n → n < s'.net.count → s'.closed.count n = s.closed.count n + 1

namespace LoopyNice

/-- A descriptor is open and non-blocking. -/
def Ready (s : LoopyNice) (n : ℕ) : Prop :=
  (s.net.sockets n).isSome = true ∧ s.nonBlock n = true

/-- All sockets are open and non-blocking, and those that are read are registered. -/
structure Serves (s : LoopyNice) (sd : LoopyNiceServerDesc) : Prop where
  ready : ∀ fd ∈ sd.sockets, ∃ n, fd = some n ∧ s.Ready n
  registered : ∀ fd ∈ sd.served, ∃ n, fd = some n ∧ s.registered n = true

/-- Only descriptors that have been opened are registered. -/
def Tracked (s : LoopyNice) : Prop := ∀ n, s.net.count ≤ n → s.registered n = false

/-- The flags of a server. -/
def serverFlags (s : LoopyNice) (inet6 : Bool) : ServerFlags :=
  ⟨inet6, s.net.SERVER_REUSEPORT, s.net.SERVER_L4_LOAD_BALANCE⟩

end LoopyNice

/-- The setup of a server that is asked for in `s`. -/
structure AllOrNothing (USE_EVENTFD : Bool) (k : Kernel) (s : LoopyNice)
    (sd : LoopyNiceServerDesc) : Prop where
  nothing : (s.loopyNiceServerCreateSockets USE_EVENTFD k sd).1 = false →
    Dropped s (s.loopyNiceServerCreateSockets USE_EVENTFD k sd).2.1
  all : (s.loopyNiceServerCreateSocketsAndListen USE_EVENTFD k sd).1 = true →
    (s.loopyNiceServerCreateSocketsAndListen USE_EVENTFD k sd).2.1.Serves
      (s.loopyNiceServerCreateSocketsAndListen USE_EVENTFD k sd).2.2
  /-- The same for `loopyNiceServerListenToSockets` on the sockets that have been created. -/
  listen : ∀ s' sd', s.loopyNiceServerCreateSockets USE_EVENTFD k sd = (true, s', sd') →
    (s'.loopyNiceServerListenToSockets k sd').1 = true →
      (s'.loopyNiceServerListenToSockets k sd').2.Serves sd'

/-! ## When it is kept -/

/-- One server: it listens and is made non-blocking, and then it is registered; or nothing stays
open. -/
def oneSetsUp (k : Kernel) (flags : ServerFlags) (r : Scan) : Bool :=
  if r.listens flags && (k.fcntl 0).ok then k.register 0 else !r.leaks flags

/-- Two servers, of which the first is closed again if the second fails. -/
def bothSetUp (k : Kernel) (flags6 flags4 : ServerFlags) (errno : Errno) : Bool :=
  let r6 := scanOf k.tcp6 errno
  if r6.listens flags6 && (k.fcntl 0).ok then
    let r4 := scanOf k.tcp4 r6.errno
    if r4.listens flags4 && (k.fcntl 1).ok then k.register 0 && k.register 1
    else !r6.leaks flags6 && !r4.leaks flags4
  else !r6.leaks flags6

/-- A pair: if there is one, the first socket is made non-blocking, and what is made non-blocking is
registered. -/
def pairSetsUp (k : Kernel) : Bool :=
  k.socketpair = .ok → (k.fcntl 0).ok = true ∧
    ((k.fcntl 1).ok = true → k.register 0 = true ∧ k.register 1 = true)

def pipeSetsUp (k : Kernel) : Bool :=
  k.pipe = .ok → (k.fcntl 0).ok = true → (k.fcntl 1).ok = true → k.register 0 = true

def eventFdSetsUp (k : Kernel) : Bool := k.eventfd = .ok && k.register 0

/-- The condition for each kind of server. -/
def setsUp (USE_EVENTFD : Bool) (k : Kernel) (s : LoopyNice) (sd : LoopyNiceServerDesc) : Bool :=
  if sd.useSocketPair then pairSetsUp k
  else if sd.usePipe then
    if USE_EVENTFD && sd.useEventFd then eventFdSetsUp k else pipeSetsUp k
  else if sd.path then oneSetsUp k (s.serverFlags false) (scanUnix k.domain s.net.errno)
  else
    match sd.bindAddr with
    | none => bothSetUp k (s.serverFlags true) (s.serverFlags false) s.net.errno
    | some inet6 =>
      oneSetsUp k (s.serverFlags inet6) (scanOf (if inet6 then k.tcp6 else k.tcp4) s.net.errno)

/-! ## What has been closed -/

section range

variable {base m : ℕ} {c : List ℕ}

theorem subperm_range (hnodup : c.Nodup) (hrange : ∀ n ∈ c, base ≤ n ∧ n < base + m) :
    c.Subperm (List.range' base m) :=
  List.subperm_of_subset hnodup fun n hn => List.mem_range'_1.mpr (hrange n hn)

theorem length_le_of_range (hnodup : c.Nodup) (hrange : ∀ n ∈ c, base ≤ n ∧ n < base + m) :
    c.length ≤ m := by
  have hle := (subperm_range hnodup hrange).length_le
  rw [List.length_range'] at hle
  exact hle

/-- Different descriptors of those that have been opened are all of them if they are as many. -/
theorem mem_all_iff (hnodup : c.Nodup) (hrange : ∀ n ∈ c, base ≤ n ∧ n < base + m) :
    (∀ n, base ≤ n → n < base + m → n ∈ c) ↔ c.length = m := by
  have hlength : (List.range' base m).length = m := List.length_range'
  constructor
  · intro hall
    have hsub : List.range' base m ⊆ c := by
      intro n hn
      obtain ⟨hle, hlt⟩ := List.mem_range'_1.mp hn
      exact hall n hle hlt
    have hge := (List.subperm_of_subset List.nodup_range' hsub).length_le
    rw [hlength] at hge
    exact Nat.le_antisymm (length_le_of_range hnodup hrange) hge
  · intro heq n hle hlt
    have hperm := (subperm_range hnodup hrange).perm_of_length_le
      (Nat.le_of_eq (hlength.trans heq.symm))
    exact hperm.mem_iff.mpr (List.mem_range'_1.mpr ⟨hle, hlt⟩)

end range

section moves

variable {s s' : LoopyNice} {m n : ℕ} {c : List ℕ}

/-- How many of the descriptors have been closed says whether all of them have. -/
theorem Moves.dropped_iff (h : Moves s s' m c) (hnodup : c.Nodup)
    (hrange : ∀ n ∈ c, s.net.count ≤ n ∧ n < s.net.count + m) :
    Dropped s s' ↔ c.length = m := by
  rw [← mem_all_iff hnodup hrange]
  unfold Dropped
  rw [h.count, h.closed]
  refine forall_congr' fun n => forall_congr' fun _ => forall_congr' fun _ => ?_
  rw [List.count_append, Nat.add_left_cancel_iff]
  constructor
  · intro hone
    exact List.count_pos_iff.mp (hone ▸ Nat.one_pos)
  · exact List.count_eq_one_of_mem hnodup

theorem Moves.ready (h : Moves s s' m c) (hn : n < s.net.count) (hnot : n ∉ c) (hready : s.Ready n) :
    s'.Ready n :=
  ⟨h.isSome hn hready.1 hnot, h.nonBlock n hready.2⟩

end moves

/-- `loopyNetSetNonBlock`. -/
inductive NonBlocked (s : LoopyNice) (fd : ℕ) (f : Fcntl) : Bool × LoopyNice → Prop
  | done (s' : LoopyNice) (h : f.ok = true) (hmoves : Moves s s' 0 []) (hnet : s'.net = s.net)
      (hnonBlock : s'.nonBlock fd = true) : NonBlocked s fd f (true, s')
  | fails (s' : LoopyNice) (h : f.ok = false) (hmoves : Moves s s' 0 []) : NonBlocked s fd f (false, s')

section fcntl

variable {s : LoopyNice} {fd : ℕ}

theorem Moves.nonBlocked (s : LoopyNice) (fd : ℕ) :
    Moves s { s with nonBlock := update s.nonBlock fd true } 0 [] :=
  { Moves.refl s with
    nonBlock := fun n h => by
      by_cases hn : n = fd
      · exact hn ▸ update_self ..
      · exact (update_of_ne hn ..).trans h }

theorem LoopyNice.setNonBlock_result (s : LoopyNice) (fd : ℕ) (f : Fcntl) :
    NonBlocked s fd f (s.loopyNetSetNonBlock fd f) := by
  have hget := Checked.sysCall s f.getfl
  have hset := Checked.sysCall s f.setfl
  unfold loopyNetSetNonBlock
  generalize s.onNet _ = r at hget
  cases hget with
  | fails e h => exact .fails _ (by rw [Fcntl.ok, h, Bool.false_and]) (Moves.net s e s.net.sock)
  | passes hget =>
    dsimp only
    generalize s.onNet _ = r at hset
    cases hset with
    | fails e h => exact .fails _ (by rw [Fcntl.ok, h, Bool.and_false]) (Moves.net s e s.net.sock)
    | passes hset =>
      refine .done _ ?_ (Moves.nonBlocked s fd) rfl (update_self ..)
      rw [Fcntl.ok, hget, hset]
      rfl

theorem LoopyNice.sockGet_own (hsock : s.net.sock = .own fd) : s.loopyNetSockGet = some fd := by
  rw [loopyNetSockGet, hsock]

theorem LoopyNice.nonBlockEnable_result (hsock : s.net.sock = .own fd) (f : Fcntl) :
    NonBlocked s fd f (s.loopyNetNonBlockEnable f) := by
  rw [loopyNetNonBlockEnable, sockGet_own hsock]
  exact s.setNonBlock_result fd f

/-- The descriptor of a socket that has been made non-blocking. -/
theorem ready_of_net {s' : LoopyNice} (hnet : s'.net = s.net)
    (hopen : (s.net.sockets fd).isSome = true) (hnonBlock : s'.nonBlock fd = true) :
    s'.Ready fd := by
  refine ⟨?_, hnonBlock⟩
  rw [hnet]
  exact hopen

theorem opens_isSome (s : LoopyNice) : (s.opens.net.sockets s.net.count).isSome = true := by
  have hsockets : s.opens.net.sockets s.net.count = some ⟨0, .new⟩ := update_self ..
  rw [hsockets]
  rfl

end fcntl

/-! ## What has been registered -/

/-- The sockets of a descriptor, and what the loop answers for each. -/
def registrations (k : Kernel) (sd : LoopyNiceServerDesc) : List (Option ℕ × Bool) :=
  if sd.useSocketPair then [(sd.socketpairFd 0, k.register 0), (sd.socketpairFd 1, k.register 1)]
  else if sd.usePipe then [(sd.readFd, k.register 0)]
  else if sd.path then [(sd.domainFd, k.register 0)]
  else if (sd.listen 1).isSome then [(sd.listen 0, k.register 0), (sd.listen 1, k.register 1)]
  else [(sd.listen 0, k.register 0)]

/-- The calls of `sockReadableAdd`. -/
def LoopyNice.addAll (s : LoopyNice) (calls : List (Option ℕ × Bool)) : LoopyNice :=
  calls.foldl (fun s call => (s.sockReadableAdd call.1 call.2).2) s

/-- The result of the calls is not looked at. -/
theorem LoopyNice.listen_eq (s : LoopyNice) (k : Kernel) (sd : LoopyNiceServerDesc) :
    s.loopyNiceServerListenToSockets k sd = (true, s.addAll (registrations k sd)) := by
  unfold loopyNiceServerListenToSockets registrations
  split_ifs <;> rfl

section register

variable {s : LoopyNice} {fd : Option ℕ} {registers : Bool}

theorem LoopyNice.sockReadableAdd_net (s : LoopyNice) (fd : Option ℕ) (registers : Bool) :
    (s.sockReadableAdd fd registers).2.net = s.net ∧
      (s.sockReadableAdd fd registers).2.nonBlock = s.nonBlock := by
  unfold sockReadableAdd
  cases fd with
  | none => exact ⟨rfl, rfl⟩
  | some n =>
    dsimp only
    split_ifs
    · exact ⟨rfl, rfl⟩
    · exact ⟨rfl, rfl⟩

theorem LoopyNice.sockReadableAdd_registered (s : LoopyNice) (fd : Option ℕ) (registers : Bool)
    (n : ℕ) : (s.sockReadableAdd fd registers).2.registered n = true ↔
      s.registered n = true ∨ (some n, true) = (fd, registers) := by
  unfold sockReadableAdd
  cases fd with
  | none => exact (or_iff_left nofun).symm
  | some m =>
    cases registers with
    | false => exact (or_iff_left nofun).symm
    | true =>
      dsimp only
      by_cases hn : n = m
      · rw [hn]
        exact iff_of_true (update_self ..) (.inr rfl)
      · rw [if_pos rfl]
        dsimp only
        rw [update_of_ne hn]
        refine (or_iff_left fun h => hn ?_).symm
        exact Option.some.inj (congrArg Prod.fst h)

theorem LoopyNice.addAll_net (s : LoopyNice) (calls : List (Option ℕ × Bool)) :
    (s.addAll calls).net = s.net ∧ (s.addAll calls).nonBlock = s.nonBlock := by
  induction calls generalizing s with
  | nil => exact ⟨rfl, rfl⟩
  | cons call calls ih =>
    have hfirst := s.sockReadableAdd_net call.1 call.2
    have hrest := ih (s.sockReadableAdd call.1 call.2).2
    exact ⟨hrest.1.trans hfirst.1, hrest.2.trans hfirst.2⟩

/-- What is registered after the calls; induction on the calls. -/
theorem LoopyNice.addAll_registered (s : LoopyNice) (calls : List (Option ℕ × Bool)) (n : ℕ) :
    (s.addAll calls).registered n = true ↔ s.registered n = true ∨ (some n, true) ∈ calls := by
  induction calls generalizing s with
  | nil => exact (or_iff_left List.not_mem_nil).symm
  | cons call calls ih =>
    have hfirst := s.sockReadableAdd_registered call.1 call.2 n
    have hrest := ih (s.sockReadableAdd call.1 call.2).2
    rw [hfirst] at hrest
    rw [List.mem_cons, ← or_assoc]
    exact hrest

end register

/-! ## What has been created -/

/-- The sockets of `sd'` have been created, and are what is going to be registered. -/
structure Creates (k : Kernel) (s s' : LoopyNice) (sd' : LoopyNiceServerDesc) : Prop where
  moves : ∃ m, Moves s s' m []
  ready : ∀ fd ∈ sd'.sockets, ∃ n, fd = some n ∧ s.net.count ≤ n ∧ n < s'.net.count ∧ s'.Ready n
  served : sd'.served = (registrations k sd').map Prod.fst
  nodup : sd'.served.Nodup

/-- What is promised of the result of `loopyNiceServerCreateSockets`. -/
def Meets (k : Kernel) (s : LoopyNice) : Bool × LoopyNice × LoopyNiceServerDesc → Prop
  | (false, s', _) => Dropped s s'
  | (true, s', sd') => (s'.loopyNiceServerListenToSockets k sd').2.Serves sd'

/-- How `loopyNiceServerCreateSockets` ends; `kept` says whether the setup is all or nothing. -/
inductive Outcome (k : Kernel) (s : LoopyNice) (kept : Bool) :
    Bool × LoopyNice × LoopyNiceServerDesc → Prop
  | fails (s' : LoopyNice) (sd' : LoopyNiceServerDesc) (m : ℕ) (c : List ℕ) (hmoves : Moves s s' m c)
      (hnodup : c.Nodup) (hrange : ∀ n ∈ c, s.net.count ≤ n ∧ n < s.net.count + m)
      (hkept : c.length = m ↔ kept = true) : Outcome k s kept (false, s', sd')
  | creates (s' : LoopyNice) (sd' : LoopyNiceServerDesc) (hcreates : Creates k s s' sd')
      (hkept : (∀ call ∈ registrations k sd', call.2 = true) ↔ kept = true) :
      Outcome k s kept (true, s', sd')
  /-- There is no eventfd. -/
  | missing (s' : LoopyNice) (sd' : LoopyNiceServerDesc) (m : ℕ) (hmoves : Moves s s' m [])
      (hserved : sd'.served = [none]) (hcalls : registrations k sd' = [(none, k.register 0)])
      (hkept : kept = false) : Outcome k s kept (true, s', sd')

section creates

variable {USE_EVENTFD : Bool} {k : Kernel} {s s' : LoopyNice} {sd sd' : LoopyNiceServerDesc}

theorem served_subset (sd : LoopyNiceServerDesc) : sd.served ⊆ sd.sockets := by
  unfold LoopyNiceServerDesc.sockets
  split_ifs with hpipe
  · obtain ⟨hpair, hpipe⟩ := Bool.and_eq_true_iff.mp hpipe
    rw [LoopyNiceServerDesc.served, if_neg (by simpa using hpair), if_pos hpipe]
    exact List.cons_subset_cons _ (List.nil_subset _)
  · exact List.Subset.refl _

/-- Two descriptors have been opened; for an eventfd they are the same. -/
theorem Creates.of_two {a b m : ℕ} (hmoves : Moves s s' m []) (ha : s'.Ready a) (hb : s'.Ready b)
    (hrange : ∀ n ∈ [a, b], s.net.count ≤ n ∧ n < s.net.count + m)
    (hsockets : sd'.sockets = [some a, some b])
    (hserved : sd'.served = (registrations k sd').map Prod.fst) (hnodup : sd'.served.Nodup) :
    Creates k s s' sd' := by
  obtain ⟨hrangeA, hrest⟩ := List.forall_mem_cons.mp hrange
  have hrangeB := List.forall_mem_singleton.mp hrest
  refine ⟨⟨m, hmoves⟩, ?_, hserved, hnodup⟩
  rw [hsockets, hmoves.count]
  refine List.forall_mem_cons.mpr ⟨⟨a, rfl, hrangeA.1, hrangeA.2, ha⟩, ?_⟩
  exact List.forall_mem_singleton.mpr ⟨b, rfl, hrangeB.1, hrangeB.2, hb⟩

/-- Everything is registered if and only if no registration is refused. -/
theorem Creates.serves_iff (h : Creates k s s' sd') (htracked : s.Tracked) :
    (s'.loopyNiceServerListenToSockets k sd').2.Serves sd' ↔
      ∀ call ∈ registrations k sd', call.2 = true := by
  rw [s'.listen_eq]
  dsimp only
  have hkeeps := s'.addAll_net (registrations k sd')
  constructor
  · rintro hserves ⟨fd, registers⟩ hcall
    have hfd : fd ∈ sd'.served := by
      rw [h.served]
      exact List.mem_map_of_mem hcall
    obtain ⟨n, hn, hregistered⟩ := hserves.registered fd hfd
    obtain ⟨n', hn', hle, -, -⟩ := h.ready fd (served_subset sd' hfd)
    obtain rfl : n = n' := Option.some.inj (hn.symm.trans hn')
    obtain ⟨m, hmoves⟩ := h.moves
    -- the descriptor is new, so that it is one of the calls that has registered it
    have hbefore : s'.registered n = false := by
      rw [hmoves.registered]
      exact htracked n hle
    rw [s'.addAll_registered, hbefore] at hregistered
    have hother := hregistered.resolve_left nofun
    have hnodup := h.served ▸ h.nodup
    have hsame := List.inj_on_of_nodup_map hnodup hcall hother hn
    exact congrArg Prod.snd hsame
  · intro hall
    refine ⟨fun fd hfd => ?_, fun fd hfd => ?_⟩
    · obtain ⟨n, hn, -, -, hready⟩ := h.ready fd hfd
      refine ⟨n, hn, ?_, ?_⟩
      · rw [hkeeps.1]
        exact hready.1
      · rw [hkeeps.2]
        exact hready.2
    · obtain ⟨n, hn, -⟩ := h.ready fd (served_subset sd' hfd)
      rw [h.served] at hfd
      obtain ⟨⟨fd', registers⟩, hcall, heq⟩ := List.mem_map.mp hfd
      have hregisters : registers = true := hall _ hcall
      have hfd' : fd' = some n := heq.trans hn
      subst hregisters hfd'
      exact ⟨n, hn, (s'.addAll_registered _ n).mpr (.inr hcall)⟩

/-- The sockets that have been created are listened to. -/
theorem createAndListen_of_creates
    (h : s.loopyNiceServerCreateSockets USE_EVENTFD k sd = (true, s', sd')) :
    s.loopyNiceServerCreateSocketsAndListen USE_EVENTFD k sd =
      (true, (s'.loopyNiceServerListenToSockets k sd').2, sd') := by
  rw [LoopyNice.loopyNiceServerCreateSocketsAndListen, h]

theorem createAndListen_of_fails
    (h : s.loopyNiceServerCreateSockets USE_EVENTFD k sd = (false, s', sd')) :
    s.loopyNiceServerCreateSocketsAndListen USE_EVENTFD k sd = (false, s', sd') := by
  rw [LoopyNice.loopyNiceServerCreateSocketsAndListen, h]

theorem allOrNothing_iff : AllOrNothing USE_EVENTFD k s sd ↔
    Meets k s (s.loopyNiceServerCreateSockets USE_EVENTFD k sd) := by
  generalize hcreate : s.loopyNiceServerCreateSockets USE_EVENTFD k sd = r
  obtain ⟨created, s', sd'⟩ := r
  cases created with
  | false =>
    have hboth := createAndListen_of_fails hcreate
    constructor
    · intro h
      have hnothing := h.nothing
      rw [hcreate] at hnothing
      exact hnothing rfl
    · intro h
      refine ⟨fun _ => ?_, fun hall => ?_, fun _ _ hlisten => ?_⟩
      · rw [hcreate]
        exact h
      · rw [hboth] at hall
        cases hall
      · rw [hcreate] at hlisten
        cases hlisten
  | true =>
    have hboth := createAndListen_of_creates hcreate
    constructor
    · intro h
      refine h.listen s' sd' hcreate ?_
      rw [s'.listen_eq]
    · intro h
      refine ⟨fun hnothing => ?_, fun _ => ?_, fun _ _ hlisten _ => ?_⟩
      · rw [hcreate] at hnothing
        cases hnothing
      · rw [hboth]
        exact h
      · cases hcreate.symm.trans hlisten
        exact h

theorem Outcome.meets_iff {kept : Bool} {r : Bool × LoopyNice × LoopyNiceServerDesc}
    (h : Outcome k s kept r) (htracked : s.Tracked) : Meets k s r ↔ kept = true := by
  cases h with
  | fails s' sd' m c hmoves hnodup hrange hkept =>
    exact (hmoves.dropped_iff hnodup hrange).trans hkept
  | creates s' sd' hcreates hkept => exact (hcreates.serves_iff htracked).trans hkept
  | missing s' sd' m hmoves hserved hcalls hkept =>
    rw [hkept]
    refine iff_of_false (fun hserves => ?_) Bool.false_ne_true
    obtain ⟨n, hn, -⟩ := hserves.registered none (hserved ▸ List.mem_singleton_self _)
    cases hn

/-- The sockets that are registered have been opened before. -/
theorem Outcome.tracked {kept : Bool} {r : Bool × LoopyNice × LoopyNiceServerDesc}
    (h : Outcome k s kept r) (htracked : s.Tracked) :
    LoopyNice.Tracked (if r.1 then (r.2.1.loopyNiceServerListenToSockets k r.2.2).2 else r.2.1) := by
  have hbefore {s' : LoopyNice} {m : ℕ} {c : List ℕ} (hmoves : Moves s s' m c) : s'.Tracked := by
    intro n hn
    rw [hmoves.registered]
    exact htracked n (Nat.le_trans (hmoves.count ▸ Nat.le_add_right ..) hn)
  cases h with
  | fails s' sd' m c hmoves hnodup hrange hkept => exact hbefore hmoves
  | creates s' sd' hcreates hkept =>
    obtain ⟨m, hmoves⟩ := hcreates.moves
    rw [if_pos rfl, s'.listen_eq]
    intro n hn
    dsimp only at hn ⊢
    rw [(s'.addAll_net _).1] at hn
    rw [← Bool.not_eq_true, s'.addAll_registered, hbefore hmoves n hn]
    rintro (hold | hcall)
    · cases hold
    · have hfd : some n ∈ sd'.served := by
        rw [hcreates.served]
        exact List.mem_map_of_mem hcall
      obtain ⟨n', hn', -, hlt, -⟩ := hcreates.ready _ (served_subset sd' hfd)
      obtain rfl := Option.some.inj hn'
      omega
  | missing s' sd' m hmoves hserved hcalls hkept =>
    rw [if_pos rfl, s'.listen_eq, hcalls]
    exact hbefore hmoves

end creates

end Loopy.Nice
