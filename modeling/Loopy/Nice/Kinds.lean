import Loopy.Nice.Setup

/-!
# The kinds of server

Of a socket pair the second socket stays open when the first one cannot be made non-blocking; of a pipe
both ends are closed. A server stays open where its address does (`Scan.leaks`), and the first of two
servers is closed when the second fails. In each case the condition is the one of `setsUp`
(`create_outcome`), so the setup is all or nothing exactly then (`all_or_nothing_iff`).
-/

namespace Loopy.Nice

open Loopy.Net
open Function (update update_self)

section creates

variable {k : Kernel} {s s' : LoopyNice} {sd : LoopyNiceServerDesc}

/-! ## Two descriptors -/

/-- Two descriptors have been opened and made non-blocking. -/
theorem ready_both {s₁ s₂ : LoopyNice} (hfirst : Moves s.opens.opens s₁ 0 [])
    (hnonBlock : s₁.nonBlock s.net.count = true) (hsecond : Moves s₁ s₂ 0 [])
    (hnonBlock' : s₂.nonBlock (s.net.count + 1) = true) :
    s₂.Ready s.net.count ∧ s₂.Ready (s.net.count + 1) := by
  have hmoves := hfirst.trans hsecond
  have hcount : s.opens.opens.net.count = s.net.count + 2 := rfl
  have hopen : (s.opens.opens.net.sockets s.net.count).isSome = true :=
    (Moves.opens s.opens).isSome (Nat.lt_succ_self _) (opens_isSome s) List.not_mem_nil
  have hopen' : (s.opens.opens.net.sockets (s.net.count + 1)).isSome = true := opens_isSome s.opens
  refine ⟨⟨hmoves.isSome ?_ hopen List.not_mem_nil, hsecond.nonBlock _ hnonBlock⟩,
    ⟨hmoves.isSome ?_ hopen' List.not_mem_nil, hnonBlock'⟩⟩
  · omega
  · omega

/-- Nothing has been opened. -/
theorem Outcome.of_errno {kept : Bool} (e : Errno) (hkept : kept = true) :
    Outcome k s kept (false, { s with net := { s.net with errno := e } }, sd) :=
  .fails _ _ 0 [] (Moves.net s e s.net.sock) .nil (List.forall_mem_nil _) (iff_of_true rfl hkept)

theorem createSocketPair_outcome (hkind : sd.useSocketPair = true) :
    Outcome k s (pairSetsUp k) (s.createSocketPair k sd) := by
  have hcall := Checked.sysCall s k.socketpair
  unfold LoopyNice.createSocketPair
  have hkept : pairSetsUp k = true ↔ (k.socketpair = .ok → (k.fcntl 0).ok = true ∧
      ((k.fcntl 1).ok = true → k.register 0 = true ∧ k.register 1 = true)) := decide_eq_true_iff
  generalize s.onNet _ = r at hcall
  cases hcall with
  | fails e h =>
    exact .of_errno e (hkept.mpr fun hok => absurd hok (of_decide_eq_false h))
  | passes h =>
    have hok : k.socketpair = .ok := of_decide_eq_true h
    have hopens := (Moves.opens s).trans (Moves.opens s.opens)
    have hfirst := s.opens.opens.setNonBlock_result s.net.count (k.fcntl 0)
    dsimp only
    generalize s.opens.opens.loopyNetSetNonBlock _ _ = r at hfirst
    cases hfirst with
    | fails s₁ hfails hfirst =>
      -- the second socket stays open
      have hmoves := (hopens.trans hfirst).trans (Moves.close s₁ s.net.count)
      refine .fails _ _ _ _ hmoves (List.nodup_singleton _) ?_ (iff_of_false (by simp) ?_)
      · intro n hn
        rw [List.mem_singleton.mp hn]
        omega
      · rw [hkept]
        intro hall
        have hok' := (hall hok).1
        rw [hfails] at hok'
        cases hok'
    | done s₁ hdone hfirst _ hnonBlock =>
      have hsecond := s₁.setNonBlock_result (s.net.count + 1) (k.fcntl 1)
      dsimp only
      generalize s₁.loopyNetSetNonBlock _ _ = r at hsecond
      cases hsecond with
      | fails s₂ hfails hsecond =>
        have hmoves := (((hopens.trans hfirst).trans hsecond).trans
          (Moves.close s₂ (s.net.count + 1))).trans (Moves.close _ s.net.count)
        refine .fails _ _ _ _ hmoves (by simp) ?_ (iff_of_true rfl ?_)
        · intro n hn
          simp only [List.mem_append, List.mem_singleton, List.not_mem_nil, false_or] at hn
          omega
        · refine hkept.mpr fun _ => ⟨hdone, fun hok' => ?_⟩
          rw [hfails] at hok'
          cases hok'
      | done s₂ hdone' hsecond _ hnonBlock' =>
        obtain ⟨hready, hready'⟩ := ready_both hfirst hnonBlock hsecond hnonBlock'
        refine .creates _ _ (.of_two ((hopens.trans hfirst).trans hsecond) hready hready'
          (by simp) ?_ ?_ ?_) ?_
        · simp [LoopyNiceServerDesc.sockets, LoopyNiceServerDesc.served, hkind]
        · simp [LoopyNiceServerDesc.served, registrations, hkind]
        · simp [LoopyNiceServerDesc.served, hkind]
        · simp [hkept, registrations, hkind, hok, hdone, hdone']

theorem createEventFd_outcome (hkind : sd.useSocketPair = false) (hpipe : sd.usePipe = true) :
    Outcome k s (eventFdSetsUp k) (s.createEventFd k sd) := by
  have hcall := Checked.sysCall s k.eventfd
  unfold LoopyNice.createEventFd eventFdSetsUp
  generalize s.onNet _ = r at hcall
  cases hcall with
  | fails e h =>
    refine .missing _ _ 0 (Moves.net s e s.net.sock) ?_ ?_ (by rw [h, Bool.false_and])
    · simp [LoopyNiceServerDesc.served, hkind, hpipe]
    · simp [registrations, hkind, hpipe]
  | passes h =>
    rw [h, Bool.true_and]
    have hmoves := (Moves.opens s).trans (Moves.nonBlocked s.opens s.net.count)
    have hready : LoopyNice.Ready
        { s.opens with nonBlock := update s.nonBlock s.net.count true } s.net.count :=
      ⟨opens_isSome s, update_self ..⟩
    refine .creates _ _ (.of_two hmoves hready hready (by simp) ?_ ?_ ?_) ?_
    · simp [LoopyNiceServerDesc.sockets, hkind, hpipe]
    · simp [LoopyNiceServerDesc.served, registrations, hkind, hpipe]
    · simp [LoopyNiceServerDesc.served, hkind, hpipe]
    · simp [registrations, hkind, hpipe]

theorem createPipe_outcome (hkind : sd.useSocketPair = false) (hpipe : sd.usePipe = true) :
    Outcome k s (pipeSetsUp k) (s.createPipe k sd) := by
  have hcall := Checked.sysCall s k.pipe
  unfold LoopyNice.createPipe
  have hkept : pipeSetsUp k = true ↔ (k.pipe = .ok → (k.fcntl 0).ok = true →
      (k.fcntl 1).ok = true → k.register 0 = true) := decide_eq_true_iff
  generalize s.onNet _ = r at hcall
  cases hcall with
  | fails e h =>
    exact .of_errno e (hkept.mpr fun hok => absurd hok (of_decide_eq_false h))
  | passes h =>
    have hok : k.pipe = .ok := of_decide_eq_true h
    have hopens := (Moves.opens s).trans (Moves.opens s.opens)
    have hfirst := s.opens.opens.setNonBlock_result s.net.count (k.fcntl 0)
    -- both ends are closed, whichever of them has failed
    have hclosed {s₁ : LoopyNice} {sd' : LoopyNiceServerDesc} (h : Moves s s₁ 2 [])
        (hnot : ¬ ((k.fcntl 0).ok = true ∧ (k.fcntl 1).ok = true)) : Outcome k s (pipeSetsUp k)
          (false, (s₁.close s.net.count).close (s.net.count + 1), sd') := by
      have hmoves := (h.trans (Moves.close s₁ s.net.count)).trans (Moves.close _ (s.net.count + 1))
      refine .fails _ _ _ _ hmoves (by simp) ?_ (iff_of_true rfl ?_)
      · intro n hn
        simp only [List.mem_append, List.mem_singleton, List.not_mem_nil, false_or] at hn
        omega
      · exact hkept.mpr fun _ hok' hok'' => absurd ⟨hok', hok''⟩ hnot
    dsimp only
    generalize s.opens.opens.loopyNetSetNonBlock _ _ = r at hfirst
    cases hfirst with
    | fails s₁ hfails hfirst =>
      refine hclosed (hopens.trans hfirst) ?_
      rw [hfails]
      exact fun hboth => Bool.false_ne_true hboth.1
    | done s₁ hdone hfirst _ hnonBlock =>
      have hsecond := s₁.setNonBlock_result (s.net.count + 1) (k.fcntl 1)
      dsimp only
      generalize s₁.loopyNetSetNonBlock _ _ = r at hsecond
      cases hsecond with
      | fails s₂ hfails hsecond =>
        refine hclosed ((hopens.trans hfirst).trans hsecond) ?_
        rw [hfails]
        exact fun hboth => Bool.false_ne_true hboth.2
      | done s₂ hdone' hsecond _ hnonBlock' =>
        obtain ⟨hready, hready'⟩ := ready_both hfirst hnonBlock hsecond hnonBlock'
        refine .creates _ _ (.of_two ((hopens.trans hfirst).trans hsecond) hready hready'
          (by simp) ?_ ?_ ?_) ?_
        · simp [LoopyNiceServerDesc.sockets, hkind, hpipe]
        · simp [LoopyNiceServerDesc.served, registrations, hkind, hpipe]
        · simp [LoopyNiceServerDesc.served, hkind, hpipe]
        · simp [hkept, registrations, hkind, hpipe, hok, hdone, hdone']

/-! ## Servers -/

variable {flags flags6 flags4 : ServerFlags} {r r6 r4 : Scan}

/-- A server that listens has no socket that an option of `loopyNetListen` has left open. -/
theorem leaks_of_listens (h : r.listens flags = true) : r.leaks flags = decide (0 < r.lost) := by
  unfold Scan.leaks
  unfold Scan.listens at h
  cases htaken : r.taken with
  | none =>
    rw [htaken] at h
    cases h
  | some ai =>
    rw [htaken] at h
    have hport : ai.portOptions flags = true := by
      have hlistens : ai.listens flags = true := h
      simp only [Addrinfo.listens, Bool.and_eq_true] at hlistens
      exact hlistens.1.1.2
    have hstays : ai.staysOpen flags = false := by
      rw [Addrinfo.staysOpen, hport]
      exact Bool.and_false _
    rw [Option.any_some, hstays, Bool.or_false]

/-- A server fails. -/
theorem Outcome.of_fails {m : ℕ} {c : List ℕ} (hmoves : Moves s s' m c) (hnodup : c.Nodup)
    (hrange : ∀ n ∈ c, s.net.count ≤ n ∧ n < s.net.count + m)
    (hleaks : c.length = m ↔ r.leaks flags = false) :
    Outcome k s (!r.leaks flags) (false, s', sd) := by
  refine .fails _ _ m c hmoves hnodup hrange ?_
  rw [Bool.not_eq_true']
  exact hleaks

/-- A server that listens is closed again. -/
theorem Outcome.of_closed (h : r.listens flags = true) {m n : ℕ} (hmoves : Moves s s' m [])
    (hm : m = r.lost + 1) (hn : n = s.net.count + r.lost) :
    Outcome k s (!r.leaks flags) (false, s'.close n, sd) := by
  refine .fails _ _ _ _ (hmoves.trans (Moves.close s' n)) (List.nodup_singleton n) ?_ ?_
  · intro j hj
    rw [List.mem_singleton.mp hj]
    omega
  · rw [leaks_of_listens h, hm]
    simp

/-- A server, its descriptor made non-blocking; `failed` and `done` are what is stored. -/
theorem Outcome.of_server (failed done : Option ℕ → LoopyNiceServerDesc)
    (hserved : ∀ n, (done (some n)).served = [some n])
    (hsockets : ∀ n, (done (some n)).sockets = [some n])
    (hcalls : ∀ n, registrations k (done (some n)) = [(some n, k.register 0)])
    {result : Bool × LoopyNice} :
    Served flags r s result →
    Outcome k s (oneSetsUp k flags r)
      (match result with
      | (false, s) => (false, s, sd)
      | (true, s) =>
        match s.loopyNetNonBlockEnable (k.fcntl 0) with
        | (false, s') => (false, s'.closeIf s.loopyNetSockGet, failed s.loopyNetSockGet)
        | (true, s') => (true, s', done s.loopyNetSockGet)) := by
  intro h
  unfold oneSetsUp
  cases h with
  | fails s₁ m c h hmoves hnodup hrange hleaks =>
    rw [h, Bool.false_and, if_neg Bool.false_ne_true]
    exact .of_fails hmoves hnodup hrange hleaks
  | listens s₁ n h hmoves hn hsock hopen herrno =>
    have hblock := LoopyNice.nonBlockEnable_result hsock (k.fcntl 0)
    have hget := LoopyNice.sockGet_own hsock
    have hcount := hmoves.count
    rw [h, Bool.true_and]
    dsimp only
    rw [hget]
    generalize s₁.loopyNetNonBlockEnable _ = r' at hblock
    cases hblock with
    | fails s₂ hfails hblock =>
      rw [hfails, if_neg Bool.false_ne_true]
      exact .of_closed h (hmoves.trans hblock) rfl hn
    | done s₂ hdone hblock hnet hnonBlock =>
      rw [hdone, if_pos rfl]
      have hready : s₂.Ready n := ready_of_net hnet hopen hnonBlock
      refine .creates _ _ ⟨⟨_, hmoves.trans hblock⟩, ?_, ?_, ?_⟩ ?_
      · rw [hsockets]
        refine List.forall_mem_cons.mpr ⟨⟨n, rfl, ?_, ?_, hready⟩, List.forall_mem_nil _⟩
        · omega
        · rw [hnet]
          omega
      · rw [hserved, hcalls]
        rfl
      · rw [hserved]
        exact List.nodup_singleton _
      · rw [hcalls]
        exact List.forall_mem_singleton

theorem createDomain_outcome (hkind : sd.useSocketPair = false) (hpipe : sd.usePipe = false)
    (hpath : sd.path = true) :
    Outcome k s (oneSetsUp k (s.serverFlags false) (scanUnix k.domain s.net.errno))
      (s.createDomain k sd) := by
  refine .of_server (fun _ => sd) (fun fd => { sd with domainFd := fd }) (fun n => ?_)
    (fun n => ?_) (fun n => ?_) (LoopyNice.loopyNetUnixServer_served ⟨rfl, rfl⟩ rfl k.domain)
  · simp [LoopyNiceServerDesc.served, hkind, hpipe, hpath]
  · simp [LoopyNiceServerDesc.sockets, LoopyNiceServerDesc.served, hkind, hpipe, hpath]
  · simp [registrations, hkind, hpipe, hpath]

theorem createAddr_outcome (hkind : sd.useSocketPair = false) (hpipe : sd.usePipe = false)
    (hpath : sd.path = false) {inet6 : Bool} (haddr : sd.bindAddr = some inet6) :
    Outcome k s
      (oneSetsUp k (s.serverFlags inet6) (scanOf (if inet6 then k.tcp6 else k.tcp4) s.net.errno))
      (s.createAddr k inet6 sd) := by
  have hserved : Served (s.serverFlags inet6)
      (scanOf (if inet6 then k.tcp6 else k.tcp4) s.net.errno) s
      (s.loopyNetTcpServer inet6 (if inet6 then k.tcp6 else k.tcp4)) :=
    LoopyNice.loopyNetTcpServer_served ⟨rfl, rfl⟩ _
  refine .of_server (fun sock => { sd with listen := fun i => if i = 0 then sock else none })
    (fun sock => { sd with listen := fun i => if i = 0 then sock else none }) (fun n => ?_)
    (fun n => ?_) (fun n => ?_) hserved
  · simp [LoopyNiceServerDesc.served, hkind, hpipe, hpath, haddr]
  · simp [LoopyNiceServerDesc.sockets, LoopyNiceServerDesc.served, hkind, hpipe, hpath, haddr]
  · simp [registrations, hkind, hpipe, hpath]

/-- The second server, behind a first one whose descriptor `n` has been made non-blocking. -/
theorem Outcome.of_second (hkind : sd.useSocketPair = false) (hpipe : sd.usePipe = false)
    (hpath : sd.path = false) (haddr : sd.bindAddr = none) {n : ℕ} (h : r6.listens flags6 = true)
    (hmoves : Moves s s' (r6.lost + 1) []) (hn : n = s.net.count + r6.lost) (hready : s'.Ready n)
    {result : Bool × LoopyNice} :
    Served flags4 r4 s' result →
    Outcome k s
      (if r4.listens flags4 && (k.fcntl 1).ok then k.register 0 && k.register 1
        else !r6.leaks flags6 && !r4.leaks flags4)
      (match result with
      | (false, s) =>
        (false, s.closeIf (some n), { sd with listen := update sd.listen 0 (some n) })
      | (true, s) =>
        match s.loopyNetNonBlockEnable (k.fcntl 1) with
        | (false, s') =>
          (false, (s'.closeIf (some n)).closeIf s.loopyNetSockGet, { sd with
            listen := update (update sd.listen 0 (some n)) 1 s.loopyNetSockGet })
        | (true, s') =>
          (true, s', { sd with
            listen :=
              update (update sd.listen 0 (some n)) 1 s.loopyNetSockGet })) := by
  intro hserver4
  have hcount := hmoves.count
  have hlt : n < s'.net.count := by omega
  cases hserver4 with
  | fails s₁ m c h4 hmoves4 hnodup hrange hleaks =>
    rw [h4, Bool.false_and, if_neg Bool.false_ne_true]
    -- what the second server has closed, and the first one; all lie in different ranges
    have hle := length_le_of_range hnodup hrange
    have hclosed := (hmoves.trans hmoves4).trans (Moves.close s₁ n)
    refine .fails _ _ _ _ hclosed ?_ ?_ ?_
    · refine hnodup.append (List.nodup_singleton n) ?_
      intro j hj hj'
      rw [List.mem_singleton.mp hj'] at hj
      have hge := (hrange n hj).1
      omega
    · intro j hj
      rcases List.mem_append.mp hj with hj | hj
      · have hj' := hrange j hj
        omega
      · rw [List.mem_singleton.mp hj]
        omega
    · have hlength : ([] ++ c ++ [n]).length = c.length + 1 := List.length_append
      rw [hlength, Bool.and_eq_true, Bool.not_eq_true', Bool.not_eq_true', ← hleaks,
        leaks_of_listens h, decide_eq_false_iff_not]
      omega
  | listens s₁ n4 h4 hmoves4 hn4 hsock hopen _ =>
    have hblock := LoopyNice.nonBlockEnable_result hsock (k.fcntl 1)
    have hget : s₁.loopyNetSockGet = some n4 := by rw [LoopyNice.loopyNetSockGet, hsock]
    have hboth := hmoves.trans hmoves4
    have hne : n ≠ n4 := by omega
    rw [h4, Bool.true_and]
    dsimp only
    rw [hget]
    generalize s₁.loopyNetNonBlockEnable _ = r' at hblock
    cases hblock with
    | fails s₂ hfails hblock =>
      rw [hfails, if_neg Bool.false_ne_true, leaks_of_listens h, leaks_of_listens h4]
      -- both listen, and both are closed
      have hclosed := ((hboth.trans hblock).trans (Moves.close s₂ n)).trans (Moves.close _ n4)
      refine .fails _ _ _ _ hclosed (by simpa using hne) ?_ ?_
      · intro j hj
        simp only [List.mem_append, List.mem_singleton, List.not_mem_nil, false_or] at hj
        omega
      · simp
        omega
    | done s₂ hdone hblock hnet hnonBlock =>
      rw [hdone, if_pos rfl]
      have hall := hboth.trans hblock
      have hready6 : s₂.Ready n := (hmoves4.trans hblock).ready hlt List.not_mem_nil hready
      refine .creates _ _ (.of_two hall hready6 (ready_of_net hnet hopen hnonBlock) ?_ ?_ ?_ ?_) ?_
      · intro j hj
        rcases List.mem_pair.mp hj with rfl | rfl
        all_goals omega
      · simp [LoopyNiceServerDesc.sockets, LoopyNiceServerDesc.served, hkind, hpipe, hpath, haddr]
      · simp [LoopyNiceServerDesc.served, registrations, hkind, hpipe, hpath, haddr]
      · simp [LoopyNiceServerDesc.served, hkind, hpipe, hpath, haddr, hne]
      · simp [registrations, hkind, hpipe, hpath]

theorem createBoth_outcome (hkind : sd.useSocketPair = false) (hpipe : sd.usePipe = false)
    (hpath : sd.path = false) (haddr : sd.bindAddr = none) :
    Outcome k s (bothSetUp k (s.serverFlags true) (s.serverFlags false) s.net.errno)
      (s.createBoth k sd) := by
  have hserver6 : Served (s.serverFlags true) (scanOf k.tcp6 s.net.errno) s
      (s.loopyNetTcpServer true k.tcp6) := LoopyNice.loopyNetTcpServer_served ⟨rfl, rfl⟩ k.tcp6
  unfold LoopyNice.createBoth bothSetUp
  dsimp only
  generalize scanOf k.tcp6 s.net.errno = r6 at hserver6
  generalize s.loopyNetTcpServer true k.tcp6 = result at hserver6
  cases hserver6 with
  | fails s₁ m c h hmoves hnodup hrange hleaks =>
    rw [h, Bool.false_and, if_neg Bool.false_ne_true]
    exact .of_fails hmoves hnodup hrange hleaks
  | listens s₁ n h hmoves hn hsock hopen herrno =>
    have hblock := LoopyNice.nonBlockEnable_result hsock (k.fcntl 0)
    have hget := LoopyNice.sockGet_own hsock
    rw [h, Bool.true_and]
    dsimp only
    rw [hget]
    generalize s₁.loopyNetNonBlockEnable _ = r' at hblock
    cases hblock with
    | fails s₂ hfails hblock =>
      rw [hfails, if_neg Bool.false_ne_true]
      exact .of_closed h (hmoves.trans hblock) rfl hn
    | done s₂ hdone hblock hnet hnonBlock =>
      rw [hdone, if_pos rfl]
      have hfirst := hmoves.trans hblock
      have hready : s₂.Ready n := ready_of_net hnet hopen hnonBlock
      -- `errno` is what the first server has left
      have hserver4 : Served (s.serverFlags false) (scanOf k.tcp4 s₂.net.errno) s₂
          (s₂.loopyNetTcpServer false k.tcp4) :=
        LoopyNice.loopyNetTcpServer_served (hfirst.hasFlags ⟨rfl, rfl⟩) k.tcp4
      rw [hnet, herrno] at hserver4
      exact .of_second hkind hpipe hpath haddr h hfirst hn hready hserver4

/-! ## Every kind -/

theorem create_outcome (USE_EVENTFD : Bool) (k : Kernel) (s : LoopyNice)
    (sd : LoopyNiceServerDesc) : Outcome k s (setsUp USE_EVENTFD k s sd)
      (s.loopyNiceServerCreateSockets USE_EVENTFD k sd) := by
  unfold LoopyNice.loopyNiceServerCreateSockets setsUp
  split_ifs with hkind hpipe heventfd hpath
  · exact createSocketPair_outcome hkind
  · exact createEventFd_outcome (Bool.eq_false_iff.mpr hkind) hpipe
  · exact createPipe_outcome (Bool.eq_false_iff.mpr hkind) hpipe
  · exact createDomain_outcome (Bool.eq_false_iff.mpr hkind) (Bool.eq_false_iff.mpr hpipe) hpath
  · rw [Bool.not_eq_true] at hkind hpipe hpath
    cases haddr : sd.bindAddr with
    | none => exact createBoth_outcome hkind hpipe hpath haddr
    | some inet6 => exact createAddr_outcome hkind hpipe hpath haddr

end creates

/-- Servers can be set up one after the other. -/
theorem LoopyNice.Tracked.createSocketsAndListen {s : LoopyNice} (h : s.Tracked)
    (USE_EVENTFD : Bool) (k : Kernel) (sd : LoopyNiceServerDesc) :
    (s.loopyNiceServerCreateSocketsAndListen USE_EVENTFD k sd).2.1.Tracked := by
  have htracked := (create_outcome USE_EVENTFD k s sd).tracked h
  unfold loopyNiceServerCreateSocketsAndListen
  generalize s.loopyNiceServerCreateSockets USE_EVENTFD k sd = r at htracked
  obtain ⟨created, s', sd'⟩ := r
  cases created <;> exact htracked

theorem LoopyNice.tracked_new (sock : Sock) (REUSEPORT L4_LOAD_BALANCE : Bool) (errno : Errno) :
    (LoopyNice.new sock REUSEPORT L4_LOAD_BALANCE errno).Tracked := fun _ _ => rfl

/-- The setup is all or nothing if and only if the condition for the kind of the server is met. -/
theorem all_or_nothing_iff (USE_EVENTFD : Bool) (k : Kernel) (s : LoopyNice)
    (sd : LoopyNiceServerDesc) (htracked : s.Tracked) :
    AllOrNothing USE_EVENTFD k s sd ↔ setsUp USE_EVENTFD k s sd = true :=
  allOrNothing_iff.trans ((create_outcome USE_EVENTFD k s sd).meets_iff htracked)

/-- Every call succeeds. -/
def Kernel.good : Kernel where
  socketpair := .ok
  pipe := .ok
  eventfd := .ok
  fcntl := fun _ => ⟨.ok, .ok⟩
  domain := .good 0
  tcp6 := ⟨some [.good 6], none, none, .ok⟩
  tcp4 := ⟨some [.good 4], none, none, .ok⟩
  register := fun _ => true

/-- The wildcard address. -/
def LoopyNiceServerDesc.new : LoopyNiceServerDesc where
  useSocketPair := false
  usePipe := false
  useEventFd := false
  path := false
  bindAddr := none
  socketpairFd := fun _ => none
  readFd := none
  writeFd := none
  domainFd := none
  listen := fun _ => none

theorem all_or_nothing_iff_good :
    AllOrNothing true .good (.new .closed true false (.other 0)) .new :=
  (all_or_nothing_iff true .good (.new .closed true false (.other 0)) .new
    (LoopyNice.tracked_new .closed true false (.other 0))).mpr (by decide)

/-- The loop refuses the socket of a domain path. -/
def refusing : Kernel := { Kernel.good with register := fun _ => false }

/-- The first socket of a pair cannot be made non-blocking. -/
def blocking : Kernel :=
  { Kernel.good with
    fcntl := fun i => if i = 0 then ⟨.error (.other 4), .ok⟩ else ⟨.ok, .ok⟩ }

/-- The kernel does not know `SO_REUSEPORT`. -/
def unshared : Kernel :=
  { Kernel.good with domain := { Addrinfo.good 0 with reuseport := .error (.other 92) } }

/-- A server that is reported to listen is not registered; the second socket of a pair stays open, and
so does the socket of a domain path. -/
theorem setup_not_all_or_nothing :
    ¬ AllOrNothing true refusing (.new .closed false false (.other 0))
      { LoopyNiceServerDesc.new with path := true } ∧
    ¬ AllOrNothing true blocking (.new .closed false false (.other 0))
      { LoopyNiceServerDesc.new with useSocketPair := true } ∧
    ¬ AllOrNothing true unshared (.new .closed true false (.other 0))
      { LoopyNiceServerDesc.new with path := true } := by
  refine ⟨fun h => ?_, fun h => ?_, fun h => ?_⟩
  · obtain ⟨n, -, hregistered⟩ := (h.all rfl).registered (some 0) (List.mem_singleton.mpr rfl)
    cases hregistered
  · have hclosed := h.nothing rfl 1 (by decide) (by decide)
    cases hclosed
  · have hclosed := h.nothing rfl 0 (by decide) (by decide)
    cases hclosed

end Loopy.Nice
