import Loopy.Net.Listening
import Loopy.Nice.Basic

/-!
# Setting up a listening socket

`_loopyNetTcpServer` passes over the addresses for which `socket` fails, and those whose socket it
drops because of an old `errno`; the first socket that it takes ends the loop (`scan`). That socket
listens, or it is closed, or, when an option of `loopyNetListen` fails, it stays open.
-/

namespace Loopy.Nice

open Loopy.Lib (tryEach tryEach_next tryEach_done)
open Loopy.Net
open Function (update update_of_ne update_self)

/-! ## The record changes nothing -/

/-- The same answer, and the same `net`. -/
def Agrees {α : Type} (r : α × LoopyNice) (r' : α × LoopyNet) : Prop :=
  r.1 = r'.1 ∧ r.2.net = r'.2

section agreement

variable {α : Type} {s : LoopyNice}

theorem Agrees.onNet (s : LoopyNice) (f : LoopyNet → Bool × LoopyNet) :
    Agrees (s.onNet f) (f s.net) := ⟨rfl, rfl⟩

/-- A call that may fail, and what follows in either case. -/
theorem Agrees.bind {r : Bool × LoopyNice} {r' : Bool × LoopyNet}
    {f g : LoopyNice → α × LoopyNice} {f' g' : LoopyNet → α × LoopyNet}
    (hf : ∀ s, Agrees (f s) (f' s.net)) (hg : ∀ s, Agrees (g s) (g' s.net)) :
    Agrees r r' →
    Agrees
      (match r with
      | (false, s) => f s
      | (true, s) => g s)
      (match r' with
      | (false, l) => f' l
      | (true, l) => g' l) := by
  obtain ⟨ok, s⟩ := r
  obtain ⟨ok', l⟩ := r'
  rintro ⟨hok, hnet⟩
  have hok' : ok = ok' := hok
  have hnet' : s.net = l := hnet
  subst hok' hnet'
  cases ok with
  | false => exact hf s
  | true => exact hg s

theorem LoopyNice.loopyNetListen_net (s : LoopyNice) (ai : Addrinfo) :
    Agrees (s.loopyNetListen ai) (s.net.loopyNetListen ai) := by
  unfold loopyNetListen LoopyNet.loopyNetListen
  refine Agrees.bind (fun s => ?_) (fun s => ?_) (.onNet s _)
  · exact ⟨rfl, rfl⟩
  refine Agrees.bind (fun s => ?_) (fun s => ?_) (.onNet s _)
  · exact ⟨rfl, rfl⟩
  refine Agrees.bind (fun s => ?_) (fun s => ?_) (.onNet s _)
  · exact ⟨rfl, rfl⟩
  refine Agrees.bind (fun s => ?_) (fun s => ?_) (.onNet s _)
  · exact ⟨rfl, rfl⟩
  · exact ⟨rfl, rfl⟩

theorem LoopyNice.listenOn_net (inet6 : Bool) (s : LoopyNice) (ai : Addrinfo) :
    Agrees (s.listenOn inet6 ai) (s.net.listenOn inet6 ai) := by
  unfold listenOn setUp LoopyNet.listenOn
  refine Agrees.bind (fun s => ?_) (fun s => ?_) (.onNet s _)
  · exact ⟨rfl, rfl⟩
  refine Agrees.bind (fun s => ?_) (fun s => ?_) (.onNet s _)
  · exact ⟨rfl, rfl⟩
  refine Agrees.bind (fun s => ?_) (fun s => ?_) (.onNet s _)
  · exact ⟨rfl, rfl⟩
  refine Agrees.bind (fun s => ?_) (fun s => ?_) (s.loopyNetListen_net ai)
  · exact ⟨rfl, rfl⟩
  · exact ⟨rfl, rfl⟩

theorem tryEach_net (inet6 : Bool) (ais : List Addrinfo) (s : LoopyNice) :
    Agrees (tryEach (LoopyNice.listenOn inet6) s ais)
      (tryEach (LoopyNet.listenOn inet6) s.net ais) := by
  induction ais generalizing s with
  | nil => exact ⟨rfl, rfl⟩
  | cons ai ais ih =>
    have hfirst := s.listenOn_net inet6 ai
    rw [tryEach, tryEach]
    generalize s.listenOn inet6 ai = r at hfirst
    generalize s.net.listenOn inet6 ai = r' at hfirst
    obtain ⟨exit, s'⟩ := r
    obtain ⟨exit', l⟩ := r'
    obtain ⟨hexit, hnet⟩ := hfirst
    have hexit' : exit = exit' := hexit
    have hnet' : s'.net = l := hnet
    subst hexit' hnet'
    cases exit with
    | none => exact ih s'
    | some e => exact ⟨rfl, rfl⟩

/-- The server of `Loopy.Net.Sockets` with a record of the calls of `close`. -/
theorem LoopyNice.loopyNetTcpServer_net (inet6 : Bool) (s : LoopyNice) (resolved : Resolved) :
    Agrees (s.loopyNetTcpServer inet6 resolved) (s.net.loopyNetTcpServer inet6 resolved) := by
  unfold loopyNetTcpServer LoopyNet.loopyNetTcpServer
  dsimp only
  cases resolved.servinfo with
  | none => exact ⟨rfl, rfl⟩
  | some servinfo =>
    have hloop := tryEach_net inet6 servinfo
      { s with net := { s.net with errno := resolved.errno.getD s.net.errno } }
    dsimp only at hloop ⊢
    generalize tryEach (LoopyNice.listenOn inet6) _ servinfo = r at hloop
    generalize tryEach (LoopyNet.listenOn inet6) _ servinfo = r' at hloop
    obtain ⟨exit, s'⟩ := r
    obtain ⟨exit', l⟩ := r'
    obtain ⟨hexit, hnet⟩ := hloop
    have hexit' : exit = exit' := hexit
    have hnet' : s'.net = l := hnet
    subst hexit' hnet'
    cases exit with
    | none => exact ⟨rfl, rfl⟩
    | some e => cases e <;> exact ⟨rfl, rfl⟩

end agreement

/-! ## What stays as it was -/

/-- `opened` descriptors more, and those of `closed` were closed; the others are open if they were, and
non-blocking if they were. -/
structure Moves (s s' : LoopyNice) (opened : ℕ) (closed : List ℕ) : Prop where
  count : s'.net.count = s.net.count + opened
  older : ∀ n < s.net.count, n ∉ closed → (s'.net.sockets n).isSome = (s.net.sockets n).isSome
  reuseport : s'.net.SERVER_REUSEPORT = s.net.SERVER_REUSEPORT
  loadBalance : s'.net.SERVER_L4_LOAD_BALANCE = s.net.SERVER_L4_LOAD_BALANCE
  closed : s'.closed = s.closed ++ closed
  nonBlock : ∀ n, s.nonBlock n = true → s'.nonBlock n = true
  registered : s'.registered = s.registered

section moves

variable {s s' s'' : LoopyNice} {flags : ServerFlags} {m n : ℕ} {c d : List ℕ}

theorem Moves.refl (s : LoopyNice) : Moves s s 0 [] where
  count := rfl
  older _ _ _ := rfl
  reuseport := rfl
  loadBalance := rfl
  closed := (List.append_nil _).symm
  nonBlock _ h := h
  registered := rfl

theorem Moves.trans (h : Moves s s' m c) (h' : Moves s' s'' n d) :
    Moves s s'' (m + n) (c ++ d) where
  count := by rw [h'.count, h.count, Nat.add_assoc]
  older k hk hnot := by
    rw [List.mem_append, not_or] at hnot
    have hk' : k < s'.net.count := h.count ▸ Nat.lt_add_right m hk
    exact (h'.older k hk' hnot.2).trans (h.older k hk hnot.1)
  reuseport := h'.reuseport.trans h.reuseport
  loadBalance := h'.loadBalance.trans h.loadBalance
  closed := by rw [h'.closed, h.closed, List.append_assoc]
  nonBlock k hk := h'.nonBlock k (h.nonBlock k hk)
  registered := h'.registered.trans h.registered

/-- Only `errno` and `l->sock` are other ones. -/
theorem Moves.net (s : LoopyNice) (errno : Errno) (sock : Sock) :
    Moves s { s with net := { s.net with errno, sock } } 0 [] :=
  { Moves.refl s with }

theorem Moves.opens (s : LoopyNice) : Moves s s.opens 1 [] :=
  { Moves.refl s with
    count := rfl
    older := fun _ hn _ => congrArg Option.isSome (update_of_ne (Nat.ne_of_lt hn) ..) }

/-- The socket of an address is opened; `l->sock` may be another one. -/
theorem Moves.opened (s : LoopyNice) (ai : Addrinfo) (sock : Sock) :
    Moves s { s with net := { s.net.opened ai with sock } } 1 [] :=
  { Moves.refl s with
    count := rfl
    older := fun _ hn _ => congrArg Option.isSome (update_of_ne (Nat.ne_of_lt hn) ..) }

theorem Moves.close (s : LoopyNice) (fd : ℕ) : Moves s (s.close fd) 0 [fd] :=
  { Moves.refl s with
    older := fun n _ hn => by
      have hne : n ≠ fd := fun h => hn (List.mem_singleton.mpr h)
      exact congrArg Option.isSome (update_of_ne hne ..)
    closed := rfl }

/-- The descriptor in `l->sock` is closed. -/
theorem Moves.socketClose (hsock : s.net.sock = .own n) (close : Answer) :
    Moves s (s.loopyNetSocketClose close) 0 [n] := by
  obtain ⟨net, closed, nonBlock, registered⟩ := s
  obtain ⟨sock, reuseport, loadBalance, errno, sockets, count⟩ := net
  have hown : sock = .own n := hsock
  subst hown
  unfold LoopyNice.loopyNetSocketClose LoopyNet.loopyNetSocketClose
  dsimp only
  have holder (k : ℕ) (hk : k ∉ [n]) :
      (update sockets n none k).isSome = (sockets k).isSome :=
    congrArg Option.isSome
      (update_of_ne (fun h => hk (List.mem_singleton.mpr h)) ..)
  cases sockets n with
  | none => exact ⟨rfl, fun _ _ _ => rfl, rfl, rfl, rfl, fun _ h => h, rfl⟩
  | some socket =>
    cases close with
    | ok => exact ⟨rfl, fun k _ hk => holder k hk, rfl, rfl, rfl, fun _ h => h, rfl⟩
    | error e => exact ⟨rfl, fun k _ hk => holder k hk, rfl, rfl, rfl, fun _ h => h, rfl⟩

/-- The socket in `l->sock` is open in another state. -/
theorem setState_sockets (hsock : s.net.sock = .own n) (state : SocketState) (k : ℕ) :
    ((s.net.setState state).sockets k).isSome = (s.net.sockets k).isSome := by
  unfold LoopyNet.setState
  rw [hsock]
  dsimp only
  by_cases hk : k = n
  · rw [hk, update_self, Option.isSome_map]
  · rw [update_of_ne hk]

theorem setState_eq (hsock : s.net.sock = .own n) (state : SocketState) :
    s.net.setState state = { s.net with sockets := (s.net.setState state).sockets } := by
  obtain ⟨⟨sock, reuseport, loadBalance, errno, sockets, count⟩, closed, nonBlock, registered⟩ := s
  have hown : sock = .own n := hsock
  subst hown
  rfl

theorem Moves.setState (hsock : s.net.sock = .own n) (state : SocketState) :
    Moves s { s with net := s.net.setState state } 0 [] := by
  rw [setState_eq hsock]
  exact { Moves.refl s with older := fun k _ _ => setState_sockets hsock state k }

theorem Moves.hasFlags (h : Moves s s' m c) (hflags : s.net.HasFlags flags) :
    s'.net.HasFlags flags :=
  ⟨h.reuseport.trans hflags.1, h.loadBalance.trans hflags.2⟩

/-- What was open and is not closed is still open. -/
theorem Moves.isSome (h : Moves s s' m c) (hn : n < s.net.count)
    (hopen : (s.net.sockets n).isSome = true) (hnot : n ∉ c) : (s'.net.sockets n).isSome = true :=
  (h.older n hn hnot).trans hopen

end moves

/-! ## One call -/

/-- A call that changes nothing but `errno`; `ok` says whether it succeeds. -/
inductive Checked (s : LoopyNice) (ok : Bool) : Bool × LoopyNice → Prop
  | passes (h : ok = true) : Checked s ok (true, s)
  | fails (e : Errno) (h : ok = false) :
      Checked s ok (false, { s with net := { s.net with errno := e } })

theorem Checked.sysCall (s : LoopyNice) (answer : Answer) :
    Checked s (answer = .ok) (s.onNet fun l => l.sysCall answer) := by
  cases answer with
  | ok => exact .passes rfl
  | error e => exact .fails e rfl

/-- A call that is made if `flag` is set. -/
theorem Checked.option (s : LoopyNice) (flag : Bool) (answer : Answer) :
    Checked s (flag = true → answer = .ok)
      (s.onNet fun l => if flag then l.sysCall answer else (true, l)) := by
  cases flag with
  | false => exact .passes (decide_eq_true nofun)
  | true =>
    cases answer with
    | ok => exact .passes (decide_eq_true fun _ => rfl)
    | error e => exact .fails e (decide_eq_false fun h => nomatch h rfl)

/-- The options of `loopyNetListen`. -/
theorem Checked.reuseport {s : LoopyNice} {flags : ServerFlags} (hflags : s.net.HasFlags flags)
    (ai : Addrinfo) :
    Checked s (flags.REUSEPORT = true → ai.reuseport = .ok)
      (s.onNet fun l =>
        if l.SERVER_REUSEPORT then l.loopyNetSetReusePort ai.reuseport else (true, l)) := by
  have hcall := Checked.option s flags.REUSEPORT ai.reuseport
  rw [← hflags.1] at hcall ⊢
  exact hcall

theorem Checked.loadBalance {s : LoopyNice} {flags : ServerFlags} (hflags : s.net.HasFlags flags)
    (ai : Addrinfo) :
    Checked s (flags.L4_LOAD_BALANCE = true → ai.loadBalance = .ok)
      (s.onNet fun l =>
        if l.SERVER_L4_LOAD_BALANCE then l.loopyNetL4LoadBalanceEnable ai else (true, l)) := by
  have hcall := Checked.option s flags.L4_LOAD_BALANCE ai.loadBalance
  rw [← hflags.2] at hcall ⊢
  exact hcall

/-! ## The socket of one address -/

/-- How the setup of a socket that has just been opened ends; `n` is its descriptor. -/
inductive SetUp (flags : ServerFlags) (ai : Addrinfo) (s : LoopyNice) (n : ℕ) :
    Option Exit × LoopyNice → Prop
  | listens (s' : LoopyNice) (h : ai.listens flags = true) (hmoves : Moves s s' 0 [])
      (hsock : s'.net.sock = .own n) (hopen : (s'.net.sockets n).isSome = true)
      (herrno : s'.net.errno = s.net.errno) : SetUp flags ai s n (some .done, s')
  /-- An option of `loopyNetListen` fails. -/
  | stays (s' : LoopyNice) (h : ai.listens flags = false) (hstays : ai.staysOpen flags = true)
      (hmoves : Moves s s' 0 []) : SetUp flags ai s n (some .error, s')
  | closes (s' : LoopyNice) (h : ai.listens flags = false) (hstays : ai.staysOpen flags = false)
      (hmoves : Moves s s' 0 [n]) : SetUp flags ai s n (some .error, s')

section setup

variable {s : LoopyNice} {flags : ServerFlags} {ai : Addrinfo} {n : ℕ}

/-- A call fails, and the socket is closed. -/
theorem SetUp.of_fails (hsock : s.net.sock = .own n) (h : ai.listens flags = false)
    (hstays : ai.staysOpen flags = false) (e : Errno) :
    SetUp flags ai s n (some .error,
      { s with net := { s.net with errno := e } }.loopyNetSocketClose ai.close) := by
  have hclose := Moves.socketClose
    (s := { s with net := { s.net with errno := e } }) hsock ai.close
  exact .closes _ h hstays ((Moves.net s e s.net.sock).trans hclose)

/-- An option of `loopyNetListen` fails. -/
theorem SetUp.of_option (hoptions : ai.serverOptions flags = true)
    (hport : ai.portOptions flags = false) (e : Errno) :
    SetUp flags ai s n (some .error, { s with net := { s.net with errno := e } }) := by
  refine .stays _ ?_ ?_ (Moves.net s e s.net.sock)
  · rw [Addrinfo.listens, hport, Bool.and_false, Bool.false_and, Bool.false_and]
  · rw [Addrinfo.staysOpen, hoptions, hport]
    rfl

/-- `loopyNetListen` behind the first options. -/
theorem LoopyNice.loopyNetListen_result (hflags : s.net.HasFlags flags) (hsocket : ai.socket = .ok)
    (hoptions : ai.serverOptions flags = true) (hsock : s.net.sock = .own n)
    (hopen : (s.net.sockets n).isSome = true) :
    SetUp flags ai s n
      (match s.loopyNetListen ai with
      | (false, s) => (some .error, s)
      | (true, s) => (some .done, s)) := by
  have hreuse := Checked.reuseport hflags ai
  have hbalance := Checked.loadBalance hflags ai
  have hbind := Checked.sysCall s (ai.bind 0)
  have hlisten := Checked.sysCall s ai.listen
  unfold loopyNetListen
  generalize s.onNet _ = r at hreuse
  cases hreuse with
  | fails e h => exact .of_option hoptions (by rw [Addrinfo.portOptions, h, Bool.false_and]) e
  | passes hreuse =>
    dsimp only
    generalize s.onNet _ = r at hbalance
    cases hbalance with
    | fails e h => exact .of_option hoptions (by rw [Addrinfo.portOptions, h, Bool.and_false]) e
    | passes hbalance =>
      have hport : ai.portOptions flags = true := by
        rw [Addrinfo.portOptions, hreuse, hbalance]
        rfl
      -- from here on a call that fails closes the socket
      have hstays : ai.staysOpen flags = false := by
        rw [Addrinfo.staysOpen, hport]
        exact Bool.and_false _
      dsimp only
      generalize s.onNet _ = r at hbind
      cases hbind with
      | fails e h =>
        refine .of_fails hsock ?_ hstays e
        rw [Addrinfo.listens, h, Bool.and_false, Bool.false_and]
      | passes hbind =>
        dsimp only
        generalize s.onNet _ = r at hlisten
        cases hlisten with
        | fails e h =>
          refine .of_fails hsock ?_ hstays e
          rw [Addrinfo.listens, h, Bool.and_false]
        | passes hlisten =>
          have hstate := setState_eq hsock .listening
          refine .listens _ ?_ (Moves.setState hsock .listening) ?_ ?_ ?_
          · rw [Addrinfo.listens, decide_eq_true hsocket, hoptions, hport, hbind, hlisten]
            rfl
          · exact (congrArg LoopyNet.sock hstate).trans hsock
          · exact (setState_sockets hsock .listening n).trans hopen
          · exact congrArg (fun l => l.errno) hstate

/-- An option before `loopyNetListen` fails. -/
theorem SetUp.of_first (hsock : s.net.sock = .own n) (hoptions : ai.serverOptions flags = false)
    (e : Errno) :
    SetUp flags ai s n (some .error,
      { s with net := { s.net with errno := e } }.loopyNetSocketClose ai.close) := by
  refine .of_fails hsock ?_ ?_ e
  · rw [Addrinfo.listens, hoptions, Bool.and_false, Bool.false_and, Bool.false_and, Bool.false_and]
  · rw [Addrinfo.staysOpen, hoptions, Bool.false_and]

theorem LoopyNice.setUp_result (hflags : s.net.HasFlags flags) (hsocket : ai.socket = .ok)
    (hsock : s.net.sock = .own n) (hopen : (s.net.sockets n).isSome = true) :
    SetUp flags ai s n (s.setUp flags.inet6 ai) := by
  have hv6 := Checked.option s flags.inet6 ai.v6only
  have hreuse := Checked.sysCall s ai.reuseaddr
  unfold setUp LoopyNet.loopyNetV6Only LoopyNet.loopyNetSetReuseAddr
  generalize s.onNet _ = r at hv6
  cases hv6 with
  | fails e h => exact .of_first hsock (by rw [Addrinfo.serverOptions, h, Bool.false_and]) e
  | passes hv6 =>
    dsimp only
    generalize s.onNet _ = r at hreuse
    cases hreuse with
    | fails e h => exact .of_first hsock (by rw [Addrinfo.serverOptions, h, Bool.and_false]) e
    | passes hreuse =>
      refine loopyNetListen_result hflags hsocket ?_ hsock hopen
      rw [Addrinfo.serverOptions, hv6, hreuse]
      rfl

end setup

/-! ## The addresses in turn -/

/-- How the loop goes over the addresses: the sockets it loses, and the address whose socket it takes,
with `errno` as it is then. -/
structure Scan where
  lost : ℕ
  errno : Errno
  taken : Option Addrinfo

/-- A socket is lost if `errno` says of the call of `socket` that it has failed. -/
def scan : Errno → List Addrinfo → Scan
  | errno, [] => ⟨0, errno, none⟩
  | errno, ai :: ais =>
    match ai.socket with
    | .error e => scan e ais
    | .ok =>
      let errno := ai.socketErrno.getD errno
      if errno = .EAFNOSUPPORT then
        let rest := scan errno ais
        { rest with lost := rest.lost + 1 }
      else ⟨0, errno, some ai⟩

/-- The scan of what `getaddrinfo` answers. -/
def scanOf (resolved : Resolved) (errno : Errno) : Scan :=
  let errno := resolved.errno.getD errno
  match resolved.servinfo with
  | none => ⟨0, errno, none⟩
  | some servinfo => scan errno servinfo

/-- The one address of `loopyNetUnixServer`; its socket is not lost. -/
def scanUnix (ai : Addrinfo) (errno : Errno) : Scan :=
  match ai.socket with
  | .error e => ⟨0, e, none⟩
  | .ok => ⟨0, ai.socketErrno.getD errno, some ai⟩

namespace Scan

/-- The server listens. -/
def listens (r : Scan) (flags : ServerFlags) : Bool := r.taken.any fun ai => ai.listens flags

/-- A socket stays open that nobody refers to. -/
def leaks (r : Scan) (flags : ServerFlags) : Bool :=
  0 < r.lost || r.taken.any fun ai => ai.staysOpen flags

end Scan

variable {ai : Addrinfo} {ais : List Addrinfo} {errno : Errno}

theorem scan_error {e : Errno} (h : ai.socket = .error e) :
    scan errno (ai :: ais) = scan e ais := by
  rw [scan, h]

theorem scan_stale (h : ai.Stale errno) :
    scan errno (ai :: ais) =
      { scan (ai.socketErrno.getD errno) ais with
        lost := (scan (ai.socketErrno.getD errno) ais).lost + 1 } := by
  rw [scan, h.1]
  exact if_pos h.2

theorem scan_taken (h : ai.socket = .ok) (hfresh : ¬ ai.Stale errno) :
    scan errno (ai :: ais) = ⟨0, ai.socketErrno.getD errno, some ai⟩ := by
  rw [scan, h]
  exact if_neg fun hstale => hfresh ⟨h, hstale⟩

/-- How a server ends, when it is started in `s`. -/
inductive Served (flags : ServerFlags) (r : Scan) (s : LoopyNice) : Bool × LoopyNice → Prop
  | listens (s' : LoopyNice) (n : ℕ) (h : r.listens flags = true)
      (hmoves : Moves s s' (r.lost + 1) []) (hn : n = s.net.count + r.lost)
      (hsock : s'.net.sock = .own n) (hopen : (s'.net.sockets n).isSome = true)
      (herrno : s'.net.errno = r.errno) : Served flags r s (true, s')
  | fails (s' : LoopyNice) (m : ℕ) (c : List ℕ) (h : r.listens flags = false)
      (hmoves : Moves s s' m c) (hnodup : c.Nodup)
      (hrange : ∀ n ∈ c, s.net.count ≤ n ∧ n < s.net.count + m)
      (hleaks : c.length = m ↔ r.leaks flags = false) : Served flags r s (false, s')

section server

variable {s s' : LoopyNice} {flags : ServerFlags} {ai : Addrinfo} {ais : List Addrinfo} {r : Scan}

/-- No address is left. -/
theorem Served.of_exhausted (h : r.taken = none) (hmoves : Moves s s' r.lost []) :
    Served flags r s (false, s') := by
  refine .fails s' r.lost [] ?_ hmoves .nil (List.forall_mem_nil _) ?_
  · rw [Scan.listens, h]
    rfl
  · rw [Scan.leaks, h]
    simp [eq_comm]

/-- A socket has been taken, and it is set up. -/
theorem Served.of_setUp {n : ℕ} (h : r.taken = some ai) (hmoves : Moves s s' (r.lost + 1) [])
    (hn : n = s.net.count + r.lost) (herrno : s'.net.errno = r.errno)
    {result : Option Exit × LoopyNice} :
    SetUp flags ai s' n result →
    Served flags r s
      (match result with
      | (some .done, s) => (true, s)
      | (_, s) => (false, s)) := by
  intro hsetup
  have hlistens : r.listens flags = ai.listens flags := by
    rw [Scan.listens, h]
    rfl
  have hleaks : r.leaks flags = (decide (0 < r.lost) || ai.staysOpen flags) := by
    rw [Scan.leaks, h]
    rfl
  cases hsetup with
  | listens s'' h hmoves' hsock hopen herrno' =>
    exact .listens s'' n (hlistens.trans h) (hmoves.trans hmoves') hn hsock hopen
      (herrno'.trans herrno)
  | stays s'' h hstays hmoves' =>
    refine .fails s'' (r.lost + 1) [] (hlistens.trans h) (hmoves.trans hmoves') .nil
      (List.forall_mem_nil _) ?_
    rw [hleaks, hstays, Bool.or_true]
    exact iff_of_false (Nat.succ_ne_zero r.lost).symm nofun
  | closes s'' h hstays hmoves' =>
    refine .fails s'' (r.lost + 1) [n] (hlistens.trans h) (hmoves.trans hmoves')
      (List.nodup_cons.mpr ⟨List.not_mem_nil, .nil⟩) ?_ ?_
    · intro k hk
      rw [List.mem_singleton.mp hk, hn]
      omega
    · rw [hleaks, hstays, Bool.or_false, decide_eq_false_iff_not, List.length_singleton]
      omega

/-- A call of which the result is known. -/
theorem LoopyNice.onNet_eq {f : LoopyNet → Bool × LoopyNet} {ok : Bool} {l : LoopyNet}
    (h : f s.net = (ok, l)) : s.onNet f = (ok, { s with net := l }) := by
  rw [onNet, h]

theorem LoopyNice.listenOn_error {e : Errno} (inet6 : Bool) (h : ai.socket = .error e) :
    s.listenOn inet6 ai = (none, { s with net := { s.net with errno := e } }) := by
  rw [listenOn, onNet_eq (LoopyNet.socketNew_error h)]

theorem LoopyNice.listenOn_stale (inet6 : Bool) (h : ai.Stale s.net.errno) :
    s.listenOn inet6 ai =
      (none, { s with net := { s.net.opened ai with sock := s.net.sock } }) := by
  rw [listenOn, onNet_eq (LoopyNet.socketNew_stale h)]

theorem LoopyNice.listenOn_taken (inet6 : Bool) (h : ai.socket = .ok)
    (hfresh : ¬ ai.Stale s.net.errno) :
    s.listenOn inet6 ai = { s with net := s.net.opened ai }.setUp inet6 ai := by
  rw [listenOn, onNet_eq (LoopyNet.socketNew_ok h hfresh)]

theorem opened_isSome (l : LoopyNet) (ai : Addrinfo) :
    ((l.opened ai).sockets l.count).isSome = true := by
  have hsockets : (l.opened ai).sockets l.count = some ⟨ai.ai_addr, .new⟩ :=
    update_self ..
  rw [hsockets]
  rfl

/-- The setup of a socket ends the loop. -/
theorem SetUp.ends {n : ℕ} {result : Option Exit × LoopyNice} (h : SetUp flags ai s n result) :
    ∃ exit, result.1 = some exit := by
  cases h <;> exact ⟨_, rfl⟩

/-- The loop in a state that is reached by passing over addresses; the induction is on the addresses
that are left, and `lost` sockets have been lost before. -/
theorem tryEach_served (hflags : s.net.HasFlags flags) (ais : List Addrinfo) {t : LoopyNice}
    {lost : ℕ} (hmoves : Moves s t lost [])
    (hlost : r.lost = lost + (scan t.net.errno ais).lost)
    (herrno : r.errno = (scan t.net.errno ais).errno)
    (htaken : r.taken = (scan t.net.errno ais).taken) :
    Served flags r s
      (match tryEach (LoopyNice.listenOn flags.inet6) t ais with
      | (some .done, s) => (true, s)
      | (_, s) => (false, s)) := by
  induction ais generalizing t lost with
  | nil =>
    refine .of_exhausted htaken ?_
    rw [hlost]
    exact hmoves
  | cons ai ais ih =>
    cases hsocket : ai.socket with
    | error e =>
      rw [scan_error hsocket] at hlost herrno htaken
      rw [tryEach_next (LoopyNice.listenOn_error flags.inet6 hsocket)]
      exact ih (hmoves.trans (Moves.net t e t.net.sock)) hlost herrno htaken
    | ok =>
      by_cases hstale : ai.Stale t.net.errno
      · -- the socket stays open, and the loop goes on with the same `errno`
        rw [scan_stale hstale] at hlost herrno htaken
        rw [tryEach_next (LoopyNice.listenOn_stale flags.inet6 hstale)]
        refine ih (hmoves.trans (Moves.opened t ai t.net.sock)) ?_ herrno htaken
        rw [hlost, Nat.add_assoc, Nat.add_comm 1]
        rfl
      · rw [scan_taken hsocket hstale] at hlost herrno htaken
        have hopened : Moves s { t with net := t.net.opened ai } (lost + 1) [] :=
          hmoves.trans (Moves.opened t ai (.own t.net.count))
        have hsetup := LoopyNice.setUp_result (s := { t with net := t.net.opened ai })
          (hopened.hasFlags hflags) hsocket rfl (opened_isSome _ ai)
        rw [← LoopyNice.listenOn_taken flags.inet6 hsocket hstale] at hsetup
        generalize hresult : t.listenOn flags.inet6 ai = result at hsetup
        obtain ⟨exit, u⟩ := result
        obtain ⟨e, he⟩ := hsetup.ends
        have hexit : exit = some e := he
        subst hexit
        rw [tryEach_done hresult]
        have hlost' : r.lost = lost := hlost
        rw [← hlost'] at hopened hmoves
        exact .of_setUp htaken hopened hmoves.count herrno.symm hsetup

/-- `_loopyNetTcpServer`. -/
theorem LoopyNice.loopyNetTcpServer_served (hflags : s.net.HasFlags flags) (resolved : Resolved) :
    Served flags (scanOf resolved s.net.errno) s (s.loopyNetTcpServer flags.inet6 resolved) := by
  unfold loopyNetTcpServer scanOf
  dsimp only
  have hmoves := Moves.net s (resolved.errno.getD s.net.errno) s.net.sock
  cases resolved.servinfo with
  | none => exact .of_exhausted rfl hmoves
  | some ais => exact tryEach_served hflags ais hmoves (Nat.zero_add _).symm rfl rfl

/-- The calls of `loopyNetUnixServer` are those for an IPv4 address. -/
theorem LoopyNice.loopyNetUnixServer_eq (s : LoopyNice) (hsocket : ai.socket = .ok) :
    s.loopyNetUnixServer ai =
      match { s with net := s.net.opened ai }.setUp false ai with
      | (some .done, s) => (true, s)
      | (_, s) => (false, s) := by
  have hnew : s.loopyNetSocketNew ai =
      match ({ s with net := s.net.opened ai } : LoopyNice).onNet fun l =>
        l.loopyNetSetReuseAddr ai with
      | (false, s) => (false, s.loopyNetSocketClose ai.close)
      | (true, s) => (true, s) := by
    rw [loopyNetSocketNew, LoopyNet.socket, hsocket]
    rfl
  have hoption (t : LoopyNice) :
      (t.onNet fun l => if false = true then l.loopyNetV6Only ai else (true, l)) = (true, t) := rfl
  rw [loopyNetUnixServer, hnew, setUp, hoption]
  dsimp only
  generalize LoopyNice.onNet _ _ = r
  obtain ⟨ok, t⟩ := r
  cases ok with
  | false => rfl
  | true =>
    dsimp only
    generalize t.loopyNetListen ai = r
    obtain ⟨ok, u⟩ := r
    cases ok <;> rfl

theorem LoopyNice.loopyNetUnixServer_served (hflags : s.net.HasFlags flags)
    (hinet6 : flags.inet6 = false) (ai : Addrinfo) :
    Served flags (scanUnix ai s.net.errno) s (s.loopyNetUnixServer ai) := by
  cases hsocket : ai.socket with
  | error e =>
    rw [loopyNetUnixServer, loopyNetSocketNew, LoopyNet.socket, scanUnix, hsocket]
    exact .of_exhausted rfl (Moves.net s e .closed)
  | ok =>
    have hopened : Moves s { s with net := s.net.opened ai } 1 [] :=
      Moves.opened s ai (.own s.net.count)
    have hsetup := setUp_result (s := { s with net := s.net.opened ai })
      (hopened.hasFlags hflags) hsocket rfl (opened_isSome _ ai)
    rw [hinet6] at hsetup
    rw [s.loopyNetUnixServer_eq hsocket, scanUnix, hsocket]
    exact .of_setUp rfl hopened rfl rfl hsetup

end server

end Loopy.Nice
