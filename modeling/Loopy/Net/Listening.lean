import Loopy.Net.Loops

/-!
# Listening on one address

The body of the loop of `_loopyNetTcpServer` goes on to the next address only after `socket` has
failed; and a socket for which an option of `loopyNetListen` fails is not closed (`staysOpen`).
-/

namespace Loopy.Net

open Loopy.Lib

/-- What decides how a server is set up: `af` and `listenFlag`. -/
structure ServerFlags where
  inet6 : Bool
  REUSEPORT : Bool
  L4_LOAD_BALANCE : Bool
deriving DecidableEq, Repr

namespace Addrinfo

/-- The options before `loopyNetListen`. -/
def serverOptions (ai : Addrinfo) (flags : ServerFlags) : Bool :=
  (flags.inet6 → ai.v6only = .ok) && ai.reuseaddr = .ok

/-- The options of `loopyNetListen`. -/
def portOptions (ai : Addrinfo) (flags : ServerFlags) : Bool :=
  (flags.REUSEPORT → ai.reuseport = .ok) && (flags.L4_LOAD_BALANCE → ai.loadBalance = .ok)

/-- All calls for the address succeed. -/
def listens (ai : Addrinfo) (flags : ServerFlags) : Bool :=
  ai.socket = .ok && ai.serverOptions flags && ai.portOptions flags && ai.bind 0 = .ok &&
    ai.listen = .ok

/-- An option of `loopyNetListen` fails, and the socket is not closed. -/
def staysOpen (ai : Addrinfo) (flags : ServerFlags) : Bool :=
  ai.serverOptions flags && !ai.portOptions flags

end Addrinfo

namespace LoopyNet

/-- The server does not listen; its socket may still be open. -/
def NotListening (flags : ServerFlags) (ai : Addrinfo) (l : LoopyNet) : Prop :=
  if ai.staysOpen flags then ∃ n s, l.sockets n = some s else ∀ n, l.sockets n = none

def Listening (ai : Addrinfo) (l : LoopyNet) : Prop := l.Only ai.ai_addr .listening

/-- The flags are those of the server. -/
def HasFlags (l : LoopyNet) (flags : ServerFlags) : Prop :=
  l.SERVER_REUSEPORT = flags.REUSEPORT ∧ l.SERVER_L4_LOAD_BALANCE = flags.L4_LOAD_BALANCE

variable {l : LoopyNet} {ai : Addrinfo} {flags : ServerFlags}

theorem portOptions_iff : ai.portOptions flags = true ↔
    (flags.REUSEPORT = true → ai.reuseport = .ok) ∧
      (flags.L4_LOAD_BALANCE = true → ai.loadBalance = .ok) := by
  simp only [Addrinfo.portOptions, Bool.and_eq_true, decide_eq_true_eq]

/-- A port option that fails. -/
theorem listen_options (hflags : l.HasFlags flags) (hport : ai.portOptions flags ≠ true) :
    ∃ errno, l.loopyNetListen ai = (false, { l with errno := errno }) := by
  rw [Ne, portOptions_iff, ← hflags.1, ← hflags.2] at hport
  unfold loopyNetListen loopyNetL4LoadBalanceEnable loopyNetSetReusePort
  by_cases hreuse : l.SERVER_REUSEPORT = true → ai.reuseport = .ok
  · have hfirst : (if l.SERVER_REUSEPORT then l.sysCall ai.reuseport else (true, l)) = (true, l) := by
      split_ifs with hflag
      · exact sysCall_ok (hreuse hflag)
      · rfl
    have hbalance := Classical.not_imp.mp fun hbalance => hport ⟨hreuse, hbalance⟩
    rw [hfirst]
    dsimp only
    rw [if_pos hbalance.1]
    cases hanswer : ai.loadBalance with
    | ok => exact absurd hanswer hbalance.2
    | error e => exact ⟨e, rfl⟩
  · have hboth := Classical.not_imp.mp hreuse
    rw [if_pos hboth.1]
    cases hanswer : ai.reuseport with
    | ok => exact absurd hanswer hboth.2
    | error e => exact ⟨e, rfl⟩

/-- The rest of `loopyNetListen`, when the port options are set. -/
theorem listen_eq (hflags : l.HasFlags flags) (hport : ai.portOptions flags = true) :
    l.loopyNetListen ai =
      match ai.bind 0, ai.listen with
      | .error e, _ => (false, { l with errno := e }.loopyNetSocketClose ai.close)
      | .ok, .error e => (false, { l with errno := e }.loopyNetSocketClose ai.close)
      | .ok, .ok => (true, l.setState .listening) := by
  rw [portOptions_iff, ← hflags.1, ← hflags.2] at hport
  have hfirst : (if l.SERVER_REUSEPORT then l.sysCall ai.reuseport else (true, l)) = (true, l) := by
    split_ifs with hflag
    · exact sysCall_ok (hport.1 hflag)
    · rfl
  have hsecond : (if l.SERVER_L4_LOAD_BALANCE then l.sysCall ai.loadBalance else (true, l)) =
      (true, l) := by
    split_ifs with hflag
    · exact sysCall_ok (hport.2 hflag)
    · rfl
  unfold loopyNetListen loopyNetL4LoadBalanceEnable loopyNetSetReusePort
  rw [hfirst]
  dsimp only
  rw [hsecond]
  cases ai.bind 0 with
  | error e => rfl
  | ok => cases ai.listen <;> rfl

theorem serverOptions_iff : ai.serverOptions flags = true ↔
    (flags.inet6 = true → ai.v6only = .ok) ∧ ai.reuseaddr = .ok := by
  simp only [Addrinfo.serverOptions, Bool.and_eq_true, decide_eq_true_eq]

/-- `listenOn` with a socket that has been opened and whose first options are set. -/
theorem listenOn_eq (hsocket : ai.socket = .ok) (hfresh : ¬ ai.Stale l.errno)
    (hoptions : ai.serverOptions flags = true) :
    listenOn flags.inet6 l ai =
      match (l.opened ai).loopyNetListen ai with
      | (false, l) => (some .error, l)
      | (true, l) => (some .done, l) := by
  rw [serverOptions_iff] at hoptions
  have hfirst : (if flags.inet6 then (l.opened ai).loopyNetV6Only ai else (true, l.opened ai)) =
      (true, l.opened ai) := by
    split_ifs with hflag
    · exact sysCall_ok (hoptions.1 hflag)
    · rfl
  unfold listenOn
  rw [socketNew_ok hsocket hfresh]
  dsimp only
  rw [hfirst]
  dsimp only
  generalize hreuse : (l.opened ai).loopyNetSetReuseAddr ai = r
  obtain rfl : r = (true, l.opened ai) := hreuse.symm.trans (sysCall_ok hoptions.2)
  rfl

/-- `listenOn` with a socket for which an option fails. -/
theorem listenOn_options (hsocket : ai.socket = .ok) (hfresh : ¬ ai.Stale l.errno)
    (hoptions : ai.serverOptions flags ≠ true) :
    ∃ errno, listenOn flags.inet6 l ai =
      (some .error, { l.opened ai with errno := errno }.loopyNetSocketClose ai.close) := by
  rw [Ne, serverOptions_iff] at hoptions
  unfold listenOn
  rw [socketNew_ok hsocket hfresh]
  dsimp only
  by_cases hv6 : flags.inet6 = true → ai.v6only = .ok
  · have hfirst : (if flags.inet6 then (l.opened ai).loopyNetV6Only ai else (true, l.opened ai)) =
        (true, l.opened ai) := by
      split_ifs with hflag
      · exact sysCall_ok (hv6 hflag)
      · rfl
    rw [hfirst]
    unfold loopyNetSetReuseAddr
    cases hanswer : ai.reuseaddr with
    | ok => exact absurd ⟨hv6, hanswer⟩ hoptions
    | error e => exact ⟨e, rfl⟩
  · have hboth := Classical.not_imp.mp hv6
    rw [if_pos hboth.1]
    unfold loopyNetV6Only
    cases hanswer : ai.v6only with
    | ok => exact absurd hanswer hboth.2
    | error e => exact ⟨e, rfl⟩

theorem Idle.listenOn (h : l.Idle) (hflags : l.HasFlags flags) :
    Attempted (fun ai => ai.socket ≠ .ok) (fun ai => ai.listens flags) (NotListening flags) Listening
      l ai (LoopyNet.listenOn flags.inet6 l ai) := by
  cases hsocket : ai.socket with
  | error e =>
    have hfresh : ¬ ai.Stale l.errno := by
      rintro ⟨hok, -⟩
      rw [hsocket] at hok
      cases hok
    have hresult : LoopyNet.listenOn flags.inet6 l ai = (none, { l with errno := e }) := by
      unfold LoopyNet.listenOn
      rw [socketNew_error hsocket]
    rw [hresult]
    refine .passes _ ?_ hfresh ⟨h.closed, h.sock⟩ ?_ ?_
    · simp [hsocket]
    · simp [Addrinfo.leaves, hsocket]
    · simp [Sock.after, hsocket]
  | ok =>
    by_cases hstale : ai.Stale l.errno
    · have hresult : LoopyNet.listenOn flags.inet6 l ai =
          (none, { l.opened ai with sock := l.sock }) := by
        unfold LoopyNet.listenOn
        rw [socketNew_stale hstale]
      rw [hresult]
      exact .leaks _ l.count hstale h.leaks_of_stale
    · have hgoes : decide (ai.socket ≠ .ok) = false := by simp [hsocket]
      have hclose (errno : Errno) :
          ({ l.opened ai with errno := errno }.loopyNetSocketClose ai.close).Idle :=
        ((h.only_opened ai errno).close ai.close).1
      by_cases hoptions : ai.serverOptions flags = true
      · rw [listenOn_eq hsocket hstale hoptions]
        have hflags' : (l.opened ai).HasFlags flags := hflags
        by_cases hport : ai.portOptions flags = true
        · have hclosed : ai.staysOpen flags = false := by
            simp [Addrinfo.staysOpen, hport]
          rw [listen_eq hflags' hport]
          cases hbind : ai.bind 0 with
          | error e =>
            refine .stops _ hgoes hstale (by simp [Addrinfo.listens, hbind]) ?_
            rw [NotListening, hclosed]
            exact (hclose e).closed
          | ok =>
            cases hlisten : ai.listen with
            | error e =>
              refine .stops _ hgoes hstale (by simp [Addrinfo.listens, hlisten]) ?_
              rw [NotListening, hclosed]
              exact (hclose e).closed
            | ok =>
              refine .succeeds _ hgoes hstale ?_ ((h.only_opened ai _).setState .listening)
              simp [Addrinfo.listens, hsocket, hoptions, hport, hbind, hlisten]
        · obtain ⟨e, hresult⟩ := listen_options hflags' hport
          have hport' : ai.portOptions flags = false := Bool.eq_false_iff.mpr hport
          rw [hresult]
          refine .stops _ hgoes hstale (by simp [Addrinfo.listens, hport']) ?_
          have hopen : ai.staysOpen flags = true := by
            simp [Addrinfo.staysOpen, hoptions, hport']
          rw [NotListening, hopen]
          exact ⟨l.count, _, Function.update_self ..⟩
      · obtain ⟨e, hresult⟩ := listenOn_options hsocket hstale hoptions
        have hoptions' : ai.serverOptions flags = false := Bool.eq_false_iff.mpr hoptions
        rw [hresult]
        refine .stops _ hgoes hstale (by simp [Addrinfo.listens, hoptions']) ?_
        have hclosed : ai.staysOpen flags = false := by
          simp [Addrinfo.staysOpen, hoptions']
        rw [NotListening, hclosed]
        exact (hclose e).closed

end LoopyNet

end Loopy.Net
