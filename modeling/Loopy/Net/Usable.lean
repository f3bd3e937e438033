import Loopy.Net.Connect
import Loopy.Net.Listening

/-!
# The first usable address

An address that fails after its socket has been opened ends both loops, but for a refused
connection; `loopyNetTcpGenericConnect` returns `true` also when no address is usable; and a socket is
lost behind an address family that is not supported. `first_usable_wins_iff` says when the first
usable address wins all the same.
-/

namespace Loopy.Net

open Loopy.Lib

/-! ## The promise -/

/-- The expected address has won: its socket is in `l->sock`, and the function has returned `true`; if
none is expected it has returned `false`. Nothing else is open. -/
def Wins (good : SocketState → Prop) : Option Addrinfo → Bool × LoopyNet → Prop
  | some ai, r => r.1 = true ∧ ∃ n s, r.2.sock = .own n ∧ r.2.sockets n = some s ∧
      s.ai_addr = ai.ai_addr ∧ good s.state ∧ ∀ m ≠ n, r.2.sockets m = none
  | none, r => r.1 = false ∧ ∀ m, r.2.sockets m = none

/-- A socket is connected, or its connection is in progress. -/
def ConnectedState (flags : ConnectFlags) (state : SocketState) : Prop :=
  state = .connected ∨ flags.NONBLOCK = true ∧ state = .inProgress

/-- What is expected of a call for a list of addresses, with a second call after it. -/
def expectedOf (flags : ConnectFlags) (n : ℕ) (ais : List Addrinfo) (second : Option Addrinfo) :
    Option Addrinfo :=
  (ais.find? fun ai => ai.connects flags n) <|> second

/-- The first address that is usable in the second call, which has no bind address. -/
def secondExpected (flags : ConnectFlags) (again : Resolved) : Option Addrinfo :=
  match again.lists false with
  | none => none
  | some (ais, n) => ais.find? fun ai => ai.connects flags n

/-- The first address that is usable with the bind address; if there is none, the first one that is
usable without it, for a best-effort bind. -/
def connectExpected (flags : ConnectFlags) (resolved again : Resolved) (bindAddr : Bool) :
    Option Addrinfo :=
  match resolved.lists bindAddr with
  | none => none
  | some (ais, n) => expectedOf flags n ais
      (if bindAddr = true ∧ flags.BEST_EFFORT_BIND = true then secondExpected flags again else none)

/-- The first address on which a server can listen. -/
def serverExpected (flags : ServerFlags) (resolved : Resolved) : Option Addrinfo :=
  match resolved.servinfo with
  | none => none
  | some ais => ais.find? fun ai => ai.listens flags

/-- The second call fails or connects an address; if an address was usable in the first call, it is
the same one. -/
def SecondWins (flags : ConnectFlags) (n : ℕ) (errno : Errno) (ais : List Addrinfo)
    (again : Resolved) : Prop :=
  match again.lists false with
  | none => ∀ ai ∈ ais, ai.connects flags n = false
  | some (ais', n') =>
    Fresh (fun ai => ai.refuses flags n') (again.errno.getD errno) ais' ∧
      ∃ b ∈ ending (fun ai => ai.refuses flags n') ais', b.connects flags n' = true ∧
        ∀ ai ∈ ais.find? fun ai => ai.connects flags n, b.ai_addr = ai.ai_addr

/-- `getaddrinfo` fails; or the first address that does not fail in `socket` or `connect` is connected;
or no address is, everything is closed again, and the second call wins. -/
def ConnectWins (flags : ConnectFlags) (resolved again : Resolved) (bindAddr : Bool)
    (l : LoopyNet) : Prop :=
  let errno := resolved.errno.getD l.errno
  match resolved.lists bindAddr with
  | none => True
  | some (ais, n) => Reaches flags n errno ais ∨
    bindAddr = true ∧ flags.BEST_EFFORT_BIND = true ∧
      FailsClosed flags n errno ais l.sock resolved.close ∧
      SecondWins flags n (errnoFailed flags n errno ais) ais again

/-- `getaddrinfo` fails; or no socket is lost, and the first address whose `socket` succeeds is
listened on, or it fails and is closed and no address is usable. -/
def ServerWins (flags : ServerFlags) (resolved : Resolved) (l : LoopyNet) : Prop :=
  match resolved.servinfo with
  | none => True
  | some ais =>
    Fresh (fun ai => ai.socket ≠ .ok) (resolved.errno.getD l.errno) ais ∧
      ∀ ai ∈ ending (fun ai => ai.socket ≠ .ok) ais, ai.listens flags = true ∨
        ai.staysOpen flags = false ∧ ∀ b ∈ ais, b.listens flags = false

/-! ## What has won -/

section wins

variable {flags : ConnectFlags} {l : LoopyNet} {n : ℕ} {ai : Addrinfo} {ok : Bool}
  {good : SocketState → Prop} {expected : Option Addrinfo}

theorem LoopyNet.Leaks.not_wins (h : l.Leaks n) : ¬ Wins good expected (ok, l) := by
  obtain ⟨-, hsock, s, hs⟩ := h
  cases expected with
  | none =>
    rintro ⟨-, hnone⟩
    rw [hnone n] at hs
    cases hs
  | some ai =>
    rintro ⟨-, m, s', hown, -, -, -, hothers⟩
    have hne : n ≠ m := fun heq => hsock (heq ▸ hown)
    rw [hothers n hne] at hs
    cases hs

theorem LoopyNet.Idle.not_wins (h : l.Idle) : ¬ Wins good expected (true, l) := by
  cases expected with
  | none =>
    rintro ⟨hfalse, -⟩
    cases hfalse
  | some ai =>
    rintro ⟨-, m, s, -, hs, -⟩
    have hnone := h.closed m
    dsimp only at hs
    rw [hnone] at hs
    cases hs

/-- A socket that is still open after a failure. -/
theorem not_wins_of_open {s : Socket} (h : l.sockets n = some s) :
    ¬ Wins good expected (false, l) := by
  cases expected with
  | none =>
    rintro ⟨-, hnone⟩
    rw [hnone n] at h
    cases h
  | some ai =>
    rintro ⟨htrue, -⟩
    cases htrue

theorem wins_false_iff (h : ∀ m, l.sockets m = none) :
    Wins good expected (false, l) ↔ expected = none := by
  cases expected with
  | none => exact iff_of_true ⟨rfl, h⟩ rfl
  | some ai => exact iff_of_false (fun hwins => absurd hwins.1 Bool.false_ne_true) nofun

theorem LoopyNet.ConnectedTo.only (h : l.ConnectedTo flags ai) :
    ∃ state, l.Only ai.ai_addr state ∧ ConnectedState flags state := by
  rcases h with h | ⟨hflag, h⟩
  · exact ⟨_, h, .inl rfl⟩
  · exact ⟨_, h, .inr ⟨hflag, rfl⟩⟩

/-- A socket that is open wins if its address is the expected one. -/
theorem LoopyNet.Only.wins_iff {a : ℕ} {state : SocketState} (h : l.Only a state)
    (hgood : good state) :
    Wins good expected (true, l) ↔ ∃ ai, expected = some ai ∧ a = ai.ai_addr := by
  obtain ⟨n, -, hsock, hopen, hothers⟩ := h
  cases expected with
  | none =>
    refine iff_of_false ?_ ?_
    · rintro ⟨hfalse, -⟩
      cases hfalse
    · rintro ⟨b, hb, -⟩
      cases hb
  | some ai =>
    constructor
    · rintro ⟨-, m, s, hown, hs, haddr, -, -⟩
      have hm : n = m := Sock.own.inj (hsock.symm.trans hown)
      rw [← hm] at hs
      have hsocket := Option.some.inj (hopen.symm.trans hs)
      rw [← hsocket] at haddr
      exact ⟨ai, rfl, haddr⟩
    · rintro ⟨b, hb, haddr⟩
      obtain rfl := Option.some.inj hb
      exact ⟨rfl, n, _, hsock, hopen, haddr, hgood, hothers⟩

/-! ## The calls -/

/-- The address that is reached is the first one that is usable. -/
theorem find?_of_ending {goesOn succeeds : Addrinfo → Bool} {ais : List Addrinfo}
    (hboth : ∀ ai, goesOn ai = true → succeeds ai = false)
    (hending : ending goesOn ais = some ai) (hsucceeds : succeeds ai = true) :
    ais.find? succeeds = some ai := by
  induction ais with
  | nil => cases hending
  | cons b ais ih =>
    cases hgoes : goesOn b with
    | true =>
      rw [ending_pass hgoes] at hending
      rw [List.find?_cons_of_neg, ih hending]
      rw [hboth b hgoes]
      exact Bool.false_ne_true
    | false =>
      rw [ending_stop hgoes] at hending
      obtain rfl := Option.some.inj hending
      exact List.find?_cons_of_pos hsucceeds

theorem connects_of_refuses (h : ai.refuses flags n = true) : ai.connects flags n = false := by
  simp only [Addrinfo.refuses, Bool.or_eq_true, Bool.and_eq_true, Bool.not_eq_true',
    decide_eq_true_eq] at h
  unfold Addrinfo.connects
  rcases h with hsocket | ⟨-, haccepted⟩
  · rw [decide_eq_false hsocket, Bool.false_and, Bool.false_and]
  · rw [haccepted, Bool.and_false]

theorem find?_connects {ais : List Addrinfo}
    (hending : ending (fun ai => ai.refuses flags n) ais = some ai)
    (hconnects : ai.connects flags n = true) :
    (ais.find? fun ai => ai.connects flags n) = some ai :=
  find?_of_ending (fun _ => connects_of_refuses) hending hconnects

variable {resolved again : Resolved} {bindAddr : Bool} {ais : List Addrinfo} {errno : Errno}
  {sock : Sock} {close : Answer} {r : Bool × LoopyNet}

/-- The first usable address is expected. -/
theorem tells_wins
    (hexpected : ∀ ai, (ais.find? fun ai => ai.connects flags n) = some ai → expected = some ai) :
    Tells flags n ais (Wins (ConnectedState flags) expected) where
  connected hending hconnects hconnected := by
    obtain ⟨state, honly, hstate⟩ := hconnected.only
    exact (honly.wins_iff hstate).mpr ⟨_, hexpected _ (find?_connects hending hconnects), rfl⟩
  idle := LoopyNet.Idle.not_wins
  leaks := LoopyNet.Leaks.not_wins

theorem expectedOf_of_find {second : Option Addrinfo}
    (h : (ais.find? fun ai => ai.connects flags n) = some ai) :
    expectedOf flags n ais second = some ai := by
  rw [expectedOf, h]
  rfl

theorem expectedOf_none_iff : expectedOf flags n ais none = none ↔
    ∀ ai ∈ ais, ai.connects flags n = false := by
  have hfind : expectedOf flags n ais none = ais.find? fun ai => ai.connects flags n := by
    unfold expectedOf
    cases ais.find? fun ai => ai.connects flags n <;> rfl
  rw [hfind, List.find?_eq_none]
  exact forall₂_congr fun ai _ => Bool.eq_false_iff.symm

/-- The second call, with everything closed. -/
theorem LoopyNet.Idle.second_iff (h : l.Idle) (ais : List Addrinfo) :
    Wins (ConnectedState flags) (expectedOf flags n ais (secondExpected flags again))
        (l.tryConnect flags false again) ↔
      SecondWins flags n l.errno ais again := by
  unfold SecondWins secondExpected
  cases hlists : again.lists false with
  | none =>
    rw [tryConnect_none hlists]
    have hclosed : ∀ m, LoopyNet.sockets { l with errno := again.errno.getD l.errno } m = none :=
      h.closed
    exact (wins_false_iff hclosed).trans expectedOf_none_iff
  | some lists =>
    obtain ⟨ais', n'⟩ := lists
    have hlevel : Level flags n' _ ais' _ _ _ := h.level hlists
    generalize l.tryConnect flags false again = r at hlevel
    dsimp only
    have hreaches (hsecond : Fresh (fun ai => ai.refuses flags n') (again.errno.getD l.errno) ais' ∧
        ∃ b ∈ ending (fun ai => ai.refuses flags n') ais', b.connects flags n' = true ∧
          ∀ ai ∈ ais.find? fun ai => ai.connects flags n, b.ai_addr = ai.ai_addr) :
        Reaches flags n' (again.errno.getD l.errno) ais' := by
      obtain ⟨hfresh, b, hb, hconnects, -⟩ := hsecond
      exact ⟨hfresh, b, hb, hconnects⟩
    cases hlevel with
    | reaches l' b hall hending hconnected =>
      obtain ⟨hfresh, c, hc, hconnects⟩ := hall
      obtain rfl : b = c := Option.some.inj (hending.symm.trans hc)
      obtain ⟨state, honly, hstate⟩ := hconnected.only
      rw [honly.wins_iff hstate, find?_connects hending hconnects]
      cases hfind : ais.find? fun ai => ai.connects flags n with
      | none =>
        have hexpected : expectedOf flags n ais (some b) = some b := by
          rw [expectedOf, hfind]
          rfl
        refine iff_of_true ⟨b, hexpected, rfl⟩ ⟨hfresh, b, hc, hconnects, fun ai hai => ?_⟩
        cases hai
      | some a =>
        rw [expectedOf_of_find hfind]
        constructor
        · rintro ⟨ai, hai, haddr⟩
          refine ⟨hfresh, b, hc, hconnects, fun d hd => ?_⟩
          rw [haddr, ← Option.some.inj hai, Option.some.inj hd]
        · rintro ⟨-, d, hd, -, hsame⟩
          obtain rfl : b = d := Option.some.inj (hending.symm.trans hd)
          exact ⟨a, rfl, hsame a rfl⟩
    | closed l' hnot hfails hidle hsock herrno =>
      exact iff_of_false hidle.not_wins fun hsecond => hnot (hreaches hsecond)
    | notClosed l' hnot hfails hidle hsock =>
      exact iff_of_false hidle.not_wins fun hsecond => hnot (hreaches hsecond)
    | leaks l' m hfresh hleaks =>
      exact iff_of_false hleaks.not_wins fun hsecond => hfresh hsecond.1

theorem connect_wins_iff (h : l.Unused) :
    Wins (ConnectedState flags) (connectExpected flags resolved again bindAddr)
        (l.loopyNetTcpGenericConnect flags resolved again bindAddr) ↔
      ConnectWins flags resolved again bindAddr l := by
  unfold ConnectWins connectExpected
  dsimp only
  cases hlists : resolved.lists bindAddr with
  | none =>
    rw [genericConnect_none hlists]
    have hwins : Wins (ConnectedState flags) none
        (false, { l with errno := resolved.errno.getD l.errno }) := ⟨rfl, h.closed⟩
    exact iff_true_intro hwins
  | some lists =>
    obtain ⟨ais, n⟩ := lists
    refine (tells_wins fun ai => expectedOf_of_find).generic_iff h hlists
      fun hbind hflag l' hidle hsock herrno => ?_
    rw [if_pos ⟨hbind, hflag⟩, ← herrno]
    exact hidle.second_iff ais

/-! ## The server -/

/-- The flags of a server. -/
def LoopyNet.serverFlags (l : LoopyNet) (inet6 : Bool) : ServerFlags :=
  ⟨inet6, l.SERVER_REUSEPORT, l.SERVER_L4_LOAD_BALANCE⟩

theorem LoopyNet.Idle.serverLoop (h : l.Idle) (inet6 : Bool) (ais : List Addrinfo) :
    LoopResult (fun ai => ai.socket ≠ .ok) (fun ai => ai.listens (l.serverFlags inet6))
      (LoopyNet.NotListening (l.serverFlags inet6)) LoopyNet.Listening l.errno l.sock.kind ais
      (tryEach (LoopyNet.listenOn inet6) l ais) := by
  refine loop_result (Keeps.listenOn inet6) (fun l' ai hkeeps hidle => ?_) h
  have hflags : l'.HasFlags (l.serverFlags inet6) := ⟨hkeeps.reuseport, hkeeps.loadBalance⟩
  exact hidle.listenOn hflags

theorem socket_of_listens {flags : ServerFlags} (h : decide (ai.socket ≠ .ok) = true) :
    ai.listens flags = false := by
  have hnot : ¬ ai.socket = .ok := of_decide_eq_true h
  unfold Addrinfo.listens
  rw [decide_eq_false hnot, Bool.false_and, Bool.false_and, Bool.false_and, Bool.false_and]

theorem server_wins_iff {inet6 : Bool} (h : l.Unused) :
    Wins (· = .listening) (serverExpected (l.serverFlags inet6) resolved)
        (l.loopyNetTcpServer inet6 resolved) ↔
      ServerWins (l.serverFlags inet6) resolved l := by
  unfold serverExpected ServerWins LoopyNet.loopyNetTcpServer
  dsimp only
  cases resolved.servinfo with
  | none =>
    have hwins : Wins (· = .listening) none
        (false, { l with errno := resolved.errno.getD l.errno }) := ⟨rfl, h.closed⟩
    exact iff_true_intro hwins
  | some ais =>
    have hidle : LoopyNet.Idle { l with errno := resolved.errno.getD l.errno } :=
      ⟨h.closed, h.idle.sock⟩
    have hloop := hidle.serverLoop inet6 ais
    dsimp only [LoopyNet.serverFlags] at hloop ⊢
    generalize tryEach (LoopyNet.listenOn inet6) _ ais = r at hloop
    generalize (⟨inet6, l.SERVER_REUSEPORT, l.SERVER_L4_LOAD_BALANCE⟩ : ServerFlags) = flags at hloop
    cases hloop with
    | exhausted l' hfresh hending hidle' herrno hsock =>
      have hnone : (ais.find? fun ai => ai.listens flags) = none := by
        refine List.find?_eq_none.mpr fun ai hai => ?_
        have hgoes := List.find?_eq_none.mp hending ai hai
        rw [Bool.not_eq_true, Bool.not_eq_false'] at hgoes
        rw [socket_of_listens hgoes]
        exact Bool.false_ne_true
      refine iff_of_true ((wins_false_iff hidle'.closed).mpr hnone) ⟨hfresh, fun ai hai => ?_⟩
      rw [hending] at hai
      cases hai
    | leaked _ n hstale hleaks =>
      refine iff_of_false ?_ fun hall => hstale hall.1
      obtain ⟨exit, l'⟩ := r
      rcases exit with _ | (_ | _) <;> exact hleaks.not_wins
    | stopped l' ai hfresh hending hfails h =>
      have hreads : (∀ b ∈ ending (fun ai => ai.socket ≠ .ok) ais, b.listens flags = true ∨
          b.staysOpen flags = false ∧ ∀ c ∈ ais, c.listens flags = false) ↔
          ai.staysOpen flags = false ∧ ∀ c ∈ ais, c.listens flags = false := by
        rw [hending]
        constructor
        · intro hall
          refine (hall ai rfl).resolve_left fun hlistens => ?_
          rw [hfails] at hlistens
          cases hlistens
        · intro hclosed b hb
          obtain rfl := Option.some.inj hb
          exact .inr hclosed
      rw [and_iff_right hfresh, hreads]
      unfold LoopyNet.NotListening at h
      cases hopen : ai.staysOpen flags with
      | true =>
        rw [hopen, if_pos rfl] at h
        obtain ⟨m, s, hs⟩ := h
        refine iff_of_false (not_wins_of_open hs) fun hboth => ?_
        cases hboth.1
      | false =>
        rw [hopen, if_neg Bool.false_ne_true] at h
        rw [and_iff_right rfl]
        refine (wins_false_iff h).trans (List.find?_eq_none.trans ?_)
        exact forall₂_congr fun ai _ => Bool.eq_false_iff.symm
    | done l' ai hfresh hending hsucceeds h =>
      have hfind : (ais.find? fun ai => ai.listens flags) = some ai :=
        find?_of_ending (fun _ => socket_of_listens) hending hsucceeds
      have hgood : Wins (· = .listening) (ais.find? fun ai => ai.listens flags) (true, l') ↔ _ :=
        h.wins_iff rfl
      refine iff_of_true (hgood.mpr ⟨ai, hfind, rfl⟩)
        ⟨hfresh, fun b hb => ?_⟩
      obtain rfl := Option.some.inj (hending.symm.trans hb)
      exact .inl hsucceeds

end wins

/-- **The first usable address wins**, in connecting and in listening, in exactly these cases. -/
theorem first_usable_wins_iff (connectFlags : ConnectFlags) (resolved again : Resolved)
    (bindAddr inet6 : Bool) {l : LoopyNet} (h : l.Unused) :
    (Wins (ConnectedState connectFlags) (connectExpected connectFlags resolved again bindAddr)
        (l.loopyNetTcpGenericConnect connectFlags resolved again bindAddr) ↔
      ConnectWins connectFlags resolved again bindAddr l) ∧
    (Wins (· = .listening) (serverExpected (l.serverFlags inet6) resolved)
        (l.loopyNetTcpServer inet6 resolved) ↔
      ServerWins (l.serverFlags inet6) resolved l) :=
  ⟨connect_wins_iff h, server_wins_iff h⟩

/-- The first address refuses the connection and the second one takes it. -/
def secondTakes : Resolved :=
  .of [{ Addrinfo.good 1 with connect := .error (.other 111) }, .good 2]

/-- The second address wins; a server listens on the first one. -/
theorem first_usable_wins_iff_second :
    Wins (ConnectedState ⟨true, false⟩) (some (.good 2))
      (LoopyNet.new.loopyNetTcpGenericConnect ⟨true, false⟩ secondTakes secondTakes true) ∧
    Wins (· = .listening) (some { Addrinfo.good 1 with connect := .error (.other 111) })
      (LoopyNet.new.loopyNetTcpServer true secondTakes) := by
  have hboth := first_usable_wins_iff ⟨true, false⟩ secondTakes secondTakes true true
    LoopyNet.unused_new
  refine ⟨hboth.1.mpr (.inl ⟨by decide, _, rfl, by decide⟩), hboth.2.mpr ⟨by decide, ?_⟩⟩
  intro ai hai
  cases hai
  exact .inl (by decide)

/-- The first address is of a family that is not supported, and the socket of the second one is lost:
neither function uses the second address. -/
theorem first_usable_not_wins :
    ∃ resolved, serverExpected ⟨false, false, false⟩ resolved = some (.good 2) ∧
      connectExpected ⟨false, false⟩ resolved resolved false = some (.good 2) ∧
      ¬ Wins (· = .listening) (some (.good 2)) (LoopyNet.new.loopyNetTcpServer false resolved) ∧
      ¬ Wins (ConnectedState ⟨false, false⟩) (some (.good 2))
        (LoopyNet.new.loopyNetTcpGenericConnect ⟨false, false⟩ resolved resolved false) := by
  refine ⟨.of [{ Addrinfo.good 1 with socket := .error .EAFNOSUPPORT }, .good 2], rfl, rfl, ?_, ?_⟩
  · rintro ⟨htrue, -⟩
    cases htrue
  · rintro ⟨-, n, s, hsock, -⟩
    cases hsock

end Loopy.Net
