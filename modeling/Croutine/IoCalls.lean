import Croutine.Io
import Croutine.TaskMoves

/-!
# What an I/O call returns

A call of `io.c` may run on many threads: each wait can bring its task back on another worker,
and everything else that runs in between uses the same `errno`s.  The call returns what it
would return on one thread of its own.  `IoResult` says what that is, from the answers of the
kernel and of the runtime alone:

* the attempts that were interrupted or that would have blocked are repeated, the latter after
  a wait that ended with readiness;
* a result that is not negative is that of the one attempt that moved data, and of the last;
* `-1` comes with the error of the attempt that failed, with `ECANCELED` after a wait that was
  cancelled, or with `ENOTSUP` after one that was refused, and no data was moved;
* a descriptor that `accept` returned is returned in non-blocking mode, or it is closed, once,
  and the error is that of the `fcntl` that failed.
-/

namespace Croutine

/-! ## Results -/

def Errno.wouldBlock (e : Errno) : Prop := e = .EAGAIN ∨ e = .EWOULDBLOCK

/-- Attempts that are repeated. -/
inductive Retries (sc : SysCall) : List IoEvent → Prop
  | nil : Retries sc []
  | interrupted {l : List IoEvent} (h : Retries sc l) :
      Retries sc (l ++ [.called sc (.failed .EINTR)])
  | waited {l : List IoEvent} {e : Errno} (h : Retries sc l) (he : e.wouldBlock) :
      Retries sc (l ++ [.called sc (.failed e), .waited .ready])

/-- Interrupted calls of `fcntl`. -/
def interrupted (sc : SysCall) (n : Nat) : List IoEvent :=
  List.replicate n (.called sc (.failed .EINTR))

/-- The first loop of `croutine_fd_set_nonblocking` so far. -/
def GettingFlags (fd : Int) (l : List IoEvent) : Prop := ∃ n, l = interrupted (.getfl fd) n

/-- The second loop so far: `flags` are what the kernel said, and all it is asked for is to add
`O_NONBLOCK` to them. -/
def SettingFlags (nonblock : Nat) (fd : Int) (flags : Nat) (l : List IoEvent) : Prop :=
  flags &&& nonblock = 0 ∧ ∃ n m, l = interrupted (.getfl fd) n ++
    .called (.getfl fd) (.flags flags) :: interrupted (.setfl fd (flags ||| nonblock)) m

/-- A whole call of `croutine_fd_set_nonblocking`, and its error if it failed. -/
inductive Flagging (nonblock : Nat) (fd : Int) : List IoEvent → Option Errno → Prop
  | already {l : List IoEvent} {flags : Nat} (h : GettingFlags fd l)
      (hflags : flags &&& nonblock ≠ 0) :
      Flagging nonblock fd (l ++ [.called (.getfl fd) (.flags flags)]) none
  | set {l : List IoEvent} {flags : Nat} (h : SettingFlags nonblock fd flags l) :
      Flagging nonblock fd (l ++ [.called (.setfl fd (flags ||| nonblock)) .done]) none
  | getRefused {l : List IoEvent} {e : Errno} (h : GettingFlags fd l) (he : e ≠ .EINTR) :
      Flagging nonblock fd (l ++ [.called (.getfl fd) (.failed e)]) (some e)
  | setRefused {l : List IoEvent} {flags : Nat} {e : Errno}
      (h : SettingFlags nonblock fd flags l) (he : e ≠ .EINTR) :
      Flagging nonblock fd (l ++ [.called (.setfl fd (flags ||| nonblock)) (.failed e)]) (some e)

/-- What led to the call of `croutine_fd_set_nonblocking(fd)` inside a request. -/
inductive Opened : IoRequest → Int → List IoEvent → Prop
  | request (fd : Int) : Opened (.setNonblocking fd) fd []
  | accept {g : Int} {l : List IoEvent} (h : Retries (.accept g) l) (fd : Nat) :
      Opened (.accept g) fd (l ++ [.called (.accept g) (.accepted fd)])

/-- How many bytes a request may move. -/
def IoRequest.count : IoRequest → Nat
  | .read _ _ count | .write _ _ count => count
  | .accept _ | .setNonblocking _ => 0

/-- **What a request returns** after these answers, and the `errno` it leaves when it
returns `-1`. -/
inductive IoResult (nonblock : Nat) (q : IoRequest) : List IoEvent → Int → Errno → Prop
  | moved {sc : SysCall} {l : List IoEvent} {data : Bytes} {e : Errno}
      (hq : q.sysCall = some sc) (h : Retries sc l) (hcount : data.length ≤ q.count) :
      IoResult nonblock q (l ++ [.called sc (.moved data)]) data.length e
  | refused {sc : SysCall} {l : List IoEvent} {e : Errno} (hq : q.sysCall = some sc)
      (h : Retries sc l) (he : e ≠ .EINTR) (hblock : ¬e.wouldBlock) :
      IoResult nonblock q (l ++ [.called sc (.failed e)]) (-1) e
  | notReady {sc : SysCall} {l : List IoEvent} {e : Errno} {wait : IoWaitResult}
      (hq : q.sysCall = some sc) (h : Retries sc l) (he : e.wouldBlock) (hwait : wait ≠ .ready) :
      IoResult nonblock q (l ++ [.called sc (.failed e), .waited wait]) (-1) (waitErrno wait)
  | accepted {g fd : Int} {l m : List IoEvent} {e : Errno} (hq : q = .accept g)
      (h : Opened q fd l) (hm : Flagging nonblock fd m none) : IoResult nonblock q (l ++ m) fd e
  | dropped {g fd : Int} {l m : List IoEvent} {e : Errno} {answer : Answer} (hq : q = .accept g)
      (h : Opened q fd l) (hm : Flagging nonblock fd m (some e)) :
      IoResult nonblock q (l ++ m ++ [.called (.close fd) answer]) (-1) e
  | flagged {fd : Int} {m : List IoEvent} {e : Errno} (hq : q = .setNonblocking fd)
      (hm : Flagging nonblock fd m none) : IoResult nonblock q m 0 e
  | unflagged {fd : Int} {m : List IoEvent} {e : Errno} (hq : q = .setNonblocking fd)
      (hm : Flagging nonblock fd m (some e)) : IoResult nonblock q m (-1) e

/-! ## A call at each of its points -/

/-- What a call was told when it is at a point on a thread with this `errno`. -/
def IoCall.Told (nonblock : Nat) (call : IoCall) (errno : Errno) : Prop :=
  match call.point with
  | .attempt => ∃ sc, call.request.sysCall = some sc ∧ Retries sc call.events
  | .failed => ∃ sc l, call.request.sysCall = some sc ∧ Retries sc l ∧
      call.events = l ++ [.called sc (.failed errno)]
  | .wait | .parked => ∃ sc l e, call.request.sysCall = some sc ∧ Retries sc l ∧ e.wouldBlock ∧
      call.events = l ++ [.called sc (.failed e)]
  | .setErrno e => IoResult nonblock call.request call.events (-1) e
  | .getFlags fd => ∃ l m, Opened call.request fd l ∧ GettingFlags fd m ∧ call.events = l ++ m
  | .getFailed fd => ∃ l m, Opened call.request fd l ∧ GettingFlags fd m ∧
      call.events = l ++ (m ++ [.called (.getfl fd) (.failed errno)])
  | .setFlags fd flags => ∃ l m, Opened call.request fd l ∧ SettingFlags nonblock fd flags m ∧
      call.events = l ++ m
  | .setFailed fd flags => ∃ l m, Opened call.request fd l ∧ SettingFlags nonblock fd flags m ∧
      call.events = l ++ (m ++ [.called (.setfl fd (flags ||| nonblock)) (.failed errno)])
  | .saveErrno fd => ∃ g l m, call.request = .accept g ∧ Opened call.request fd l ∧
      Flagging nonblock fd m (some errno) ∧ call.events = l ++ m
  | .close fd e => ∃ g l m, call.request = .accept g ∧ Opened call.request fd l ∧
      Flagging nonblock fd m (some e) ∧ call.events = l ++ m
  | .returned r => IoResult nonblock call.request call.events r errno

/-- One move of a call on a thread with an `errno`, and the `errno` it leaves. -/
inductive CallMove (nonblock : Nat) (mem : Memory) (call : IoCall) (errno : Errno) :
    IoCall → Errno → Prop
  | answered {sc : SysCall} {answer : Answer} (error : Errno)
      (hsc : call.point.sysCall nonblock call.request = some sc)
      (hfits : sc.fits mem answer = true) :
      CallMove nonblock mem call errno (call.answered nonblock sc answer) (answer.errno error)
  | go {point : IoPoint} {error : Errno}
      (h : afterErrno call.request errno call.point = some (point, error)) :
      CallMove nonblock mem call errno { call with point := point } error
  | refused (error : Errno) (hpoint : call.point = .wait) :
      CallMove nonblock mem call errno (call.waited .failed) error
  | parks (error : Errno) (hpoint : call.point = .wait) :
      CallMove nonblock mem call errno { call with point := .parked } error
  | awakes (success : Bool) (hpoint : call.point = .parked) :
      CallMove nonblock mem call errno (call.waited (if success then .ready else .closed)) errno

variable {nonblock : Nat} {mem : Memory} {call call' : IoCall} {errno errno' : Errno}

/-- One more interruption. -/
theorem interrupted_concat (sc : SysCall) (n : Nat) :
    interrupted sc n ++ [.called sc (.failed .EINTR)] = interrupted sc (n + 1) := by
  unfold interrupted
  rw [List.replicate_succ']

/-- `F_GETFL` was interrupted once more. -/
theorem GettingFlags.again {fd : Int} {l : List IoEvent} (h : GettingFlags fd l) :
    GettingFlags fd (l ++ [.called (.getfl fd) (.failed .EINTR)]) := by
  obtain ⟨n, rfl⟩ := h
  exact ⟨n + 1, interrupted_concat _ n⟩

/-- The flags are read and lack `O_NONBLOCK`: the second loop begins. -/
theorem GettingFlags.sets {fd : Int} {l : List IoEvent} {flags : Nat} (h : GettingFlags fd l)
    (hflags : flags &&& nonblock = 0) :
    SettingFlags nonblock fd flags (l ++ [.called (.getfl fd) (.flags flags)]) := by
  obtain ⟨n, rfl⟩ := h
  exact ⟨hflags, n, 0, rfl⟩

/-- `F_SETFL` was interrupted once more. -/
theorem SettingFlags.again {fd : Int} {flags : Nat} {l : List IoEvent}
    (h : SettingFlags nonblock fd flags l) :
    SettingFlags nonblock fd flags
      (l ++ [.called (.setfl fd (flags ||| nonblock)) (.failed .EINTR)]) := by
  obtain ⟨hflags, n, m, rfl⟩ := h
  refine ⟨hflags, n, m + 1, ?_⟩
  rw [← interrupted_concat, List.append_assoc, List.cons_append]

/-- `croutine_fd_set_nonblocking` returns 0 inside a request. -/
theorem Flagging.told {q : IoRequest} {fd : Int} {l m : List IoEvent} (h : Opened q fd l)
    (hm : Flagging nonblock fd m none) (errno : Errno) :
    IoCall.Told nonblock ⟨q, afterNonblocking q fd 0, l ++ m⟩ errno := by
  cases h with
  | request => exact .flagged rfl hm
  | accept hretries fd => exact .accepted rfl (.accept hretries fd) hm

/-- `croutine_fd_set_nonblocking` returns -1 inside a request. -/
theorem Flagging.told_error {q : IoRequest} {fd : Int} {l m : List IoEvent} {e : Errno}
    (h : Opened q fd l) (hm : Flagging nonblock fd m (some e)) :
    IoCall.Told nonblock ⟨q, afterNonblocking q fd (-1), l ++ m⟩ e := by
  cases h with
  | request => exact .unflagged rfl hm
  | @accept g l hretries fd => exact ⟨g, _, m, rfl, .accept hretries fd, hm, rfl⟩

/-- The answers that an attempt can get. -/
theorem SysCall.fits_attempt {q : IoRequest} {sc : SysCall} {answer : Answer}
    (hq : q.sysCall = some sc) (hfits : sc.fits mem answer = true) :
    (∃ data, answer = .moved data ∧ data.length ≤ q.count) ∨
    (∃ g fd, q = .accept g ∧ answer = .accepted fd) ∨ ∃ e, answer = .failed e := by
  cases q with
  | read fd buffer count =>
      obtain rfl := Option.some.inj hq
      cases answer with
      | moved data => exact .inl ⟨data, rfl, by simpa [SysCall.fits, IoRequest.count] using hfits⟩
      | failed e => exact .inr (.inr ⟨e, rfl⟩)
      | accepted | flags | done => exact absurd hfits (by simp [SysCall.fits])
  | write fd buffer count =>
      obtain rfl := Option.some.inj hq
      cases answer with
      | moved data =>
          simp only [SysCall.fits, Bool.and_eq_true, decide_eq_true_eq] at hfits
          exact .inl ⟨data, rfl, hfits.1⟩
      | failed e => exact .inr (.inr ⟨e, rfl⟩)
      | accepted | flags | done => exact absurd hfits (by simp [SysCall.fits])
  | accept fd =>
      obtain rfl := Option.some.inj hq
      cases answer with
      | accepted g => exact .inr (.inl ⟨fd, g, rfl, rfl⟩)
      | failed e => exact .inr (.inr ⟨e, rfl⟩)
      | moved | flags | done => exact absurd hfits (by simp [SysCall.fits])
  | setNonblocking fd => exact absurd hq (by simp [IoRequest.sysCall])

/-- **An answer of the kernel.** A call that was told the truth at its point is told the truth
after the system call it makes there. -/
theorem IoCall.Told.answered {sc : SysCall} {answer : Answer} (error : Errno)
    (h : call.Told nonblock errno) (hsc : call.point.sysCall nonblock call.request = some sc)
    (hfits : sc.fits mem answer = true) :
    (call.answered nonblock sc answer).Told nonblock (answer.errno error) := by
  obtain ⟨q, point, events⟩ := call
  cases point with
  | attempt =>
      obtain ⟨sc', hq, hretries⟩ := h
      obtain rfl : sc' = sc := Option.some.inj (hq.symm.trans hsc)
      rcases SysCall.fits_attempt hq hfits with ⟨data, rfl, hcount⟩ | ⟨g, fd, rfl, rfl⟩ | ⟨e, rfl⟩
      · exact .moved hq hretries hcount
      · obtain rfl := Option.some.inj hq
        exact ⟨_, [], .accept hretries fd, ⟨0, rfl⟩, (List.append_nil _).symm⟩
      · exact ⟨sc', events, hq, hretries, rfl⟩
  | getFlags fd =>
      obtain ⟨l, m, hopened, hm, hevents⟩ := h
      obtain rfl := Option.some.inj hsc
      dsimp only at hevents
      subst hevents
      cases answer with
      | flags flags =>
          unfold IoCall.answered
          rw [List.append_assoc]
          by_cases hflags : flags &&& nonblock = 0
          · simp only [afterAnswer, hflags, ne_eq, not_true_eq_false, if_false]
            exact ⟨l, _, hopened, hm.sets hflags, rfl⟩
          · simp only [afterAnswer, ne_eq, hflags, not_false_eq_true, if_true]
            exact Flagging.told hopened (.already hm hflags) _
      | failed e => exact ⟨l, m, hopened, hm, List.append_assoc ..⟩
      | moved data | accepted fd | done => exact absurd hfits (by simp [SysCall.fits])
  | setFlags fd flags =>
      obtain ⟨l, m, hopened, hm, hevents⟩ := h
      obtain rfl := Option.some.inj hsc
      dsimp only at hevents
      subst hevents
      cases answer with
      | done =>
          unfold IoCall.answered
          rw [List.append_assoc]
          exact Flagging.told hopened (.set hm) _
      | failed e => exact ⟨l, m, hopened, hm, List.append_assoc ..⟩
      | moved data | accepted fd | flags flags => exact absurd hfits (by simp [SysCall.fits])
  | close fd e =>
      obtain ⟨g, l, m, hq, hopened, hm, hevents⟩ := h
      obtain rfl := Option.some.inj hsc
      dsimp only at hevents
      subst hevents
      exact .dropped hq hopened hm
  | failed | wait | parked | setErrno | getFailed | setFailed | saveErrno | returned =>
      exact absurd hsc (by simp [IoPoint.sysCall])

/-- **A branch on `errno`.** The branch a call takes on its thread's `errno` is right about the
failed attempt. -/
theorem IoCall.Told.go {point : IoPoint} {error : Errno} (h : call.Told nonblock errno)
    (hgo : afterErrno call.request errno call.point = some (point, error)) :
    IoCall.Told nonblock { call with point := point } error := by
  obtain ⟨q, p, events⟩ := call
  cases p with
  | failed =>
      obtain ⟨sc, l, hq, hretries, hevents⟩ := h
      dsimp only at hevents
      subst hevents
      obtain ⟨rfl, rfl⟩ := Prod.mk.inj (Option.some.inj hgo)
      by_cases hintr : errno = .EINTR
      · subst hintr
        exact ⟨sc, hq, .interrupted hretries⟩
      · by_cases hblock : errno ≠ .EAGAIN ∧ errno ≠ .EWOULDBLOCK
        · simp only [hintr, hblock, if_false, if_true, ne_eq, not_false_eq_true, and_self]
          refine .refused hq hretries hintr ?_
          intro hw
          rcases hw with hw | hw
          · exact hblock.1 hw
          · exact hblock.2 hw
        · simp only [hintr, hblock, if_false]
          refine ⟨sc, l, errno, hq, hretries, ?_, rfl⟩
          rw [not_and_or, not_not, not_not] at hblock
          exact hblock
  | getFailed fd =>
      obtain ⟨l, m, hopened, hm, hevents⟩ := h
      dsimp only at hevents
      subst hevents
      obtain ⟨rfl, rfl⟩ := Prod.mk.inj (Option.some.inj hgo)
      by_cases hintr : errno = .EINTR
      · subst hintr
        exact ⟨l, _, hopened, hm.again, rfl⟩
      · simp only [hintr, if_false]
        exact Flagging.told_error hopened (.getRefused hm hintr)
  | setFailed fd flags =>
      obtain ⟨l, m, hopened, hm, hevents⟩ := h
      dsimp only at hevents
      subst hevents
      obtain ⟨rfl, rfl⟩ := Prod.mk.inj (Option.some.inj hgo)
      by_cases hintr : errno = .EINTR
      · subst hintr
        exact ⟨l, _, hopened, hm.again, rfl⟩
      · simp only [hintr, if_false]
        exact Flagging.told_error hopened (.setRefused hm hintr)
  | saveErrno fd =>
      obtain ⟨rfl, rfl⟩ := Prod.mk.inj (Option.some.inj hgo)
      exact h
  | setErrno e =>
      obtain ⟨rfl, rfl⟩ := Prod.mk.inj (Option.some.inj hgo)
      exact h
  | attempt | wait | parked | getFlags | setFlags | close | returned =>
      exact absurd hgo (by simp [afterErrno])

/-- **The end of a wait.** A call that waited goes on with what the wait said. -/
theorem IoCall.Told.waited {wait : IoWaitResult} (h : call.Told nonblock errno)
    (hpoint : call.point = .wait ∨ call.point = .parked) (errno' : Errno) :
    (call.waited wait).Told nonblock errno' := by
  obtain ⟨q, p, events⟩ := call
  have htold : ∃ sc l e, q.sysCall = some sc ∧ Retries sc l ∧ e.wouldBlock ∧
      events = l ++ [.called sc (.failed e)] := by
    rcases hpoint with hp | hp
    · dsimp only at hp
      subst hp
      exact h
    · dsimp only at hp
      subst hp
      exact h
  obtain ⟨sc, l, e, hq, hretries, he, rfl⟩ := htold
  have happend : l ++ [.called sc (.failed e)] ++ [IoEvent.waited wait] =
      l ++ [.called sc (.failed e), .waited wait] := by simp
  unfold IoCall.waited
  rw [happend]
  by_cases hready : wait = .ready
  · subst hready
    exact ⟨sc, hq, .waited hretries he⟩
  · simp only [afterWait, hready, if_false]
    exact .notReady hq hretries he hready

/-- **A move of a call fits what the call was told.** -/
theorem CallMove.told (hmove : CallMove nonblock mem call errno call' errno')
    (h : call.Told nonblock errno) : call'.Told nonblock errno' := by
  cases hmove with
  | answered error hsc hfits => exact h.answered error hsc hfits
  | go hgo => exact h.go hgo
  | refused error hpoint => exact h.waited (.inl hpoint) errno'
  | parks error hpoint =>
      obtain ⟨q, p, events⟩ := call
      dsimp only at hpoint
      subst hpoint
      exact h
  | awakes success hpoint => exact h.waited (.inr hpoint) errno

/-! ## Calls on their threads -/

namespace IoSys

variable {s : IoSys} {θ : Thread} {c : Caller}

/-- The call of a thread is the one of its caller. -/
theorem callAt_some {call : IoCall} (h : s.callAt θ = some (c, call)) :
    s.caller θ = some c ∧ s.calls c = some call := by
  unfold callAt at h
  obtain ⟨c', hc', hmap⟩ := Option.bind_eq_some_iff.mp h
  obtain ⟨call', hcall', heq⟩ := Option.map_eq_some_iff.mp hmap
  obtain ⟨rfl, rfl⟩ := Prod.mk.inj heq
  exact ⟨hc', hcall'⟩

/-- A thread on which a caller with a call runs is inside that call. -/
theorem inCall_of {call : IoCall} (hc : s.caller θ = some c) (hcall : s.calls c = some call) :
    s.inCall θ = true := by
  simp [inCall, callAt, hc, hcall]

/-- A caller whose thread is in no call has none. -/
theorem calls_none (hc : s.caller θ = some c) (h : s.inCall θ = false) : s.calls c = none := by
  cases hcall : s.calls c with
  | none => rfl
  | some call => exact absurd (inCall_of hc hcall) (by simp [h])

/-- A task that calls is running on the worker. -/
theorem caller_task {t : TaskId} (h : s.caller θ = some (.task t)) :
    ∃ w, θ = .worker w ∧ s.sys.wk.pc w = .running t := by
  cases θ with
  | worker w =>
      unfold caller at h
      dsimp only at h
      split at h
      · next u hpc =>
        obtain rfl := Caller.task.inj (Option.some.inj h)
        exact ⟨w, rfl, hpc⟩
      · exact absurd h (by simp)
  | runtime => exact absurd h (by simp [caller])
  | external e => exact absurd h (by simp [caller])

/-- An external thread calls for itself. -/
theorem caller_external {e : Nat} (h : s.caller θ = some (.external e)) : θ = .external e := by
  cases θ with
  | worker w =>
      unfold caller at h
      dsimp only at h
      split at h
      · exact absurd h (by simp)
      · exact absurd h (by simp)
  | runtime => exact absurd h (by simp [caller])
  | external e' => exact congrArg Thread.external (Caller.external.inj (Option.some.inj h))

/-- Who runs on a thread is read off the program points of the workers. -/
theorem caller_congr {s s' : IoSys} (h : s'.sys.wk.pc = s.sys.wk.pc) (θ : Thread) :
    s'.caller θ = s.caller θ := by
  cases θ with
  | worker w =>
      unfold caller
      rw [h]
  | runtime => rfl
  | external e => rfl

end IoSys

/-- What a step of a call does to the runtime: nothing, or a step of its thread. -/
def OwnStep (s : Sys) (θ : Thread) (s' : Sys) : Prop :=
  s' = s ∨ ∃ a, a.caller = some θ ∧ step s a = .ok s'

/-- What a step of the runtime with its I/O calls can do. -/
inductive IoOutcome (s : IoSys) : IoSys → Prop
  | runtime {a : Action} {sys : Sys} (hfree : ∀ θ, a.caller = some θ → s.inCall θ = false)
      (h : step s.sys a = .ok sys) : IoOutcome s { s with sys := sys }
  | clobber {θ : Thread} {error : Errno} (hfree : s.inCall θ = false) :
      IoOutcome s (s.setErrno θ error)
  | begins {θ : Thread} {c : Caller} {q : IoRequest} (hcaller : s.caller θ = some c)
      (hnone : s.calls c = none) : IoOutcome s (s.setCall c (some ⟨q, q.start, []⟩))
  | moves {θ : Thread} {c : Caller} {call call' : IoCall} {error : Errno} {x : Sys}
      (hcaller : s.caller θ = some c) (hcall : s.calls c = some call) (hown : OwnStep s.sys θ x)
      (hmove : CallMove (oNonblock s.sys.poller.backend) s.sys.ch.mem call (s.errno θ) call' error)
      (hstays : call'.point = .parked ∨ IoSys.caller { s with sys := x } θ = some c) :
      IoOutcome s (({ s with sys := x }.setErrno θ error).setCall c (some call'))
  | finish {θ : Thread} {c : Caller} {call : IoCall} (hcaller : s.caller θ = some c)
      (hcall : s.calls c = some call) : IoOutcome s (s.setCall c none)

/-- A write of the user's moves no worker. -/
theorem step_userWrite_pc {s s' : Sys} {θ : Thread} {a : Addr} {bs : Bytes}
    (h : step s (.userWrite θ a bs) = .ok s') : s'.wk.pc = s.wk.pc := by
  obtain ⟨_, _, hret⟩ := Res.bind_ok.mp h
  obtain rfl := Res.pure_ok.mp hret
  rfl

/-- Storing what the kernel delivered is a step of the calling thread, and moves no worker. -/
theorem SysCall.store_ok {s s' : Sys} {θ : Thread} {sc : SysCall} {answer : Answer}
    (h : sc.store s θ answer = .ok s') : OwnStep s θ s' ∧ s'.wk.pc = s.wk.pc := by
  unfold SysCall.store at h
  split at h
  · exact ⟨.inr ⟨_, rfl, h⟩, step_userWrite_pc h⟩
  · obtain rfl := Except.ok.inj h
    exact ⟨.inl rfl, rfl⟩

/-- The return of a parked call moves no worker. -/
theorem step_callReturn_pc {s s' : Sys} {w : WorkerId} (h : step s (.callReturn w) = .ok s') :
    s'.wk.pc = s.wk.pc := by
  rcases step_kind h with hc | hs
  · cases hc with
    | returnSingle | returnSelect => rfl
    | shutdown hlock ha => exact absurd ha (by simp [Action.requestsShutdown])
  · cases hs
    rfl

/-- **What a step can do.** Every step of the runtime with its I/O calls has one of the
outcomes. -/
theorem ioStep_ok {s s' : IoSys} {a : IoAction} (h : ioStep s a = .ok s') : IoOutcome s s' := by
  cases a with
  | runtime a =>
      obtain ⟨_, hreq, hrest⟩ := Res.bind_ok.mp h
      obtain ⟨sys, hsys, hret⟩ := Res.bind_ok.mp hrest
      obtain rfl := Res.pure_ok.mp hret
      refine .runtime ?_ hsys
      intro θ hθ
      rw [Res.require_ok, hθ] at hreq
      simpa using hreq
  | clobber θ error =>
      obtain ⟨_, hreq, hret⟩ := Res.bind_ok.mp h
      obtain rfl := Res.pure_ok.mp hret
      exact .clobber (by simpa using hreq)
  | call θ q =>
      obtain ⟨_, hreq, hrest⟩ := Res.bind_ok.mp h
      simp only [Res.require_ok, Bool.and_eq_true, Bool.not_eq_true'] at hreq
      split at hrest
      · next c hc =>
        obtain rfl := Res.pure_ok.mp hrest
        exact .begins hc (IoSys.calls_none hc hreq.1.2)
      · exact absurd hrest (by simp)
  | kernel θ answer error =>
      simp only [ioStep] at h
      split at h
      · next c call hat =>
        obtain ⟨hc, hcall⟩ := IoSys.callAt_some hat
        split at h
        · next sc hsc =>
          obtain ⟨_, hreq, hrest⟩ := Res.bind_ok.mp h
          obtain ⟨sys, hsys, hret⟩ := Res.bind_ok.mp hrest
          obtain rfl := Res.pure_ok.mp hret
          obtain ⟨hown, hpc⟩ := SysCall.store_ok hsys
          exact .moves hc hcall hown (.answered error hsc (by simpa using hreq))
            (.inr ((IoSys.caller_congr hpc θ).trans hc))
        · exact absurd h (by simp)
      · exact absurd h (by simp)
  | go θ =>
      simp only [ioStep] at h
      split at h
      · next c call hat =>
        obtain ⟨hc, hcall⟩ := IoSys.callAt_some hat
        split at h
        · next point error hgo =>
          obtain rfl := Except.ok.inj h
          exact .moves (x := s.sys) hc hcall (.inl rfl) (.go hgo) (.inr hc)
        · exact absurd h (by simp)
      · exact absurd h (by simp)
  | wait θ o error =>
      simp only [ioStep] at h
      split at h
      · next c call hat =>
        obtain ⟨hc, hcall⟩ := IoSys.callAt_some hat
        obtain ⟨_, hreq, hrest⟩ := Res.bind_ok.mp h
        have hpoint : call.point = .wait := by simpa using hreq
        split at hrest
        · next w =>
          obtain ⟨sys, hsys, hret⟩ := Res.bind_ok.mp hrest
          obtain rfl := Res.pure_ok.mp hret
          split
          · next hpc =>
            refine .moves hc hcall (.inr ⟨_, rfl, hsys⟩) (.refused error hpoint) (.inr ?_)
            rw [← hc]
            simp only [IoSys.caller, hpc]
          · exact .moves hc hcall (.inr ⟨_, rfl, hsys⟩) (.parks error hpoint) (.inl rfl)
        · obtain rfl := Res.pure_ok.mp hrest
          exact .moves (x := s.sys) hc hcall (.inl rfl) (.refused error hpoint) (.inr hc)
        · obtain rfl := Res.pure_ok.mp hrest
          exact .moves (x := s.sys) hc hcall (.inl rfl) (.refused error hpoint) (.inr hc)
      · exact absurd h (by simp)
  | awake θ =>
      simp only [ioStep] at h
      split at h
      · next w t call hat =>
        obtain ⟨hc, hcall⟩ := IoSys.callAt_some hat
        obtain ⟨_, hreq, hrest⟩ := Res.bind_ok.mp h
        obtain ⟨sys, hsys, hret⟩ := Res.bind_ok.mp hrest
        obtain rfl := Res.pure_ok.mp hret
        have hmoves := IoOutcome.moves (x := sys) hc hcall (.inr ⟨_, rfl, hsys⟩)
          (.awakes (s.sys.tasks t).ioWakeSuccess (by simpa using hreq))
          (.inr ((IoSys.caller_congr (step_callReturn_pc hsys) _).trans hc))
        simpa [IoSys.setErrno] using hmoves
      · exact absurd h (by simp)
  | finish θ =>
      simp only [ioStep] at h
      split at h
      · next c call hat =>
        obtain ⟨hc, hcall⟩ := IoSys.callAt_some hat
        split at h
        · obtain rfl := Except.ok.inj h
          exact .finish hc hcall
        · exact absurd h (by simp)
      · exact absurd h (by simp)

/-- **The runtime below does not notice.**  The calls of `io.c` use the runtime like any other
user code. -/
theorem ioRuntime_sys {backend : Backend} {s : IoSys} (h : (ioRuntime backend).Reach s) :
    (runtime backend).Reach s.sys := by
  refine Machine.ReachVia.project (M := runtime backend) (N := ioRuntime backend)
    (fun _ hinit => hinit.1) ?_ h
  intro s a s' hstep
  cases ioStep_ok hstep with
  | runtime hfree h => exact .inr ⟨_, h⟩
  | moves hcaller hcall hown hmove hstays =>
      rcases hown with heq | ⟨b, _, hb⟩
      · exact .inl heq
      · exact .inr ⟨b, hb⟩
  | clobber | begins | finish => exact .inl rfl

/-! ## Calls in a run -/

/-- The back end is the same also when `worker_deinit` has closed the poller. -/
theorem runtime_backend {backend : Backend} {s : Sys} (h : (runtime backend).Reach s) :
    s.poller.backend = backend := by
  refine Machine.ReachVia.invariant (I := fun x => x.poller.backend = backend) ?_ ?_ h
  · rintro s ⟨wakeFd, workers, runCapacity, ioCapacity, _, _, rfl⟩
    rfl
  · intro s a s' hreach hs _ hstep
    by_cases hdown' : s'.life = .down
    · by_cases hdown : s.life = .down
      · cases ((IoInv.reach hreach).gone hdown).step (LifeInv.reach hreach) hdown hstep with
        | chans | publish | owed | ready => exact hs
      · obtain ⟨_, rfl⟩ := step_ends hstep hdown hdown'
        exact hs
    · exact backend_reach (.step hreach trivial hstep) hdown'

namespace IoSys

variable {backend : Backend} {s : IoSys} {θ θ' : Thread} {c : Caller}

/-- A caller runs on one thread. -/
theorem caller_unique (hreach : (runtime backend).Reach s.sys) (h : s.caller θ = some c)
    (h' : s.caller θ' = some c) : θ = θ' := by
  cases c with
  | task t =>
      obtain ⟨w, rfl, hw⟩ := caller_task h
      obtain ⟨w', rfl, hw'⟩ := caller_task h'
      have hdown : s.sys.life ≠ .down :=
        fun hdown => (LifeInv.reach hreach).down_dead hdown hw rfl
      obtain ⟨loc, hloc⟩ := (TaskInv.reach hreach hdown).placed
      have hexec : loc t = .exec w := (hloc.held w t).mp (congrArg Pc.holds hw)
      have hexec' : loc t = .exec w' := (hloc.held w' t).mp (congrArg Pc.holds hw')
      exact congrArg Thread.worker (Place.exec.inj (hexec.symm.trans hexec'))
  | external e => rw [caller_external h, caller_external h']

/-- A step of another thread leaves a caller where it runs. -/
theorem caller_step {a : Action} {x : Sys} (hreach : (runtime backend).Reach s.sys)
    (h : s.caller θ = some c) (hstep : step s.sys a = .ok x) (ha : a.caller ≠ some θ) :
    caller { s with sys := x } θ = some c := by
  cases c with
  | task t =>
      obtain ⟨w, rfl, hw⟩ := caller_task h
      have hpc : x.wk.pc w = .running t := 
        step_running hreach hstep hw fun hacts => ha (Action.caller_of_acts hacts)
      simp only [caller, hpc]
  | external e =>
      obtain rfl := caller_external h
      rfl

end IoSys

/-- Every call under way is parked, or runs on a thread with the `errno` it was told. -/
def CallsTold (backend : Backend) (s : IoSys) : Prop :=
  ∀ c call, s.calls c = some call →
    (call.point = .parked ∧ ∃ e, call.Told (oNonblock backend) e) ∨
    ∃ θ, s.caller θ = some c ∧ call.Told (oNonblock backend) (s.errno θ)

/-- What a parked call was told does not depend on `errno`. -/
theorem IoCall.Told.parked {e : Errno} (h : call.Told nonblock e) (hp : call.point = .parked)
    (e' : Errno) : call.Told nonblock e' := by
  obtain ⟨q, p, events⟩ := call
  dsimp only at hp
  subst hp
  exact h

/-- A call that begins has been told nothing. -/
theorem IoRequest.told_start (q : IoRequest) (e : Errno) :
    IoCall.Told nonblock ⟨q, q.start, []⟩ e := by
  cases q with
  | read fd buffer count | write fd buffer count | accept fd => exact ⟨_, rfl, .nil⟩
  | setNonblocking fd => exact ⟨[], [], .request fd, ⟨0, rfl⟩, rfl⟩

namespace CallsTold

variable {backend : Backend} {s s' : IoSys}

/-- The call of a caller that runs on a thread. -/
theorem running (h : CallsTold backend s) (hreach : (runtime backend).Reach s.sys) {θ : Thread}
    {c : Caller} (hc : s.caller θ = some c) (hcall : s.calls c = some call) :
    call.Told (oNonblock backend) (s.errno θ) := by
  rcases h c call hcall with ⟨hp, e, htold⟩ | ⟨θ', hc', htold⟩
  · exact htold.parked hp _
  · rw [IoSys.caller_unique hreach hc hc']
    exact htold

/-- **Told calls, step.** Every outcome of a step keeps what the calls were told. -/
theorem outcome (h : CallsTold backend s) (hreach : (runtime backend).Reach s.sys)
    (hout : IoOutcome s s') : CallsTold backend s' := by
  intro c call hcall
  cases hout with
  | runtime hfree hstep =>
      refine (h c call hcall).imp id ?_
      rintro ⟨θ, hc, htold⟩
      refine ⟨θ, IoSys.caller_step hreach hc hstep ?_, htold⟩
      intro ha
      exact absurd (hfree θ ha) (by simp [IoSys.inCall_of hc hcall])
  | @clobber θ₀ error hfree =>
      refine (h c call hcall).imp id ?_
      rintro ⟨θ, hc, htold⟩
      have hne : θ ≠ θ₀ := by
        intro heq
        subst heq
        exact absurd hfree (by simp [IoSys.inCall_of hc hcall])
      refine ⟨θ, hc, ?_⟩
      simpa [IoSys.setErrno, hne] using htold
  | @begins θ₀ c₀ q hcaller hnone =>
      by_cases hcc : c = c₀
      · subst hcc
        simp only [IoSys.setCall, Function.update_self, Option.some.injEq] at hcall
        subst hcall
        exact .inr ⟨θ₀, hcaller, q.told_start _⟩
      · simp only [IoSys.setCall, Function.update_of_ne hcc] at hcall
        exact h c call hcall
  | @moves θ₀ c₀ call₀ call' error x hcaller hcall₀ hown hmove hstays =>
      have hnonblock : oNonblock s.sys.poller.backend = oNonblock backend := by
        rw [runtime_backend hreach]
      by_cases hcc : c = c₀
      · subst hcc
        simp only [IoSys.setCall, Function.update_self, Option.some.injEq] at hcall
        subst hcall
        rw [hnonblock] at hmove
        have htold := hmove.told (h.running hreach hcaller hcall₀)
        rcases hstays with hp | hc
        · exact .inl ⟨hp, error, htold⟩
        · refine .inr ⟨θ₀, hc, ?_⟩
          simpa [IoSys.setErrno, IoSys.setCall] using htold
      · simp only [IoSys.setCall, IoSys.setErrno, Function.update_of_ne hcc] at hcall
        refine (h c call hcall).imp id ?_
        rintro ⟨θ, hc, htold⟩
        have hne : θ ≠ θ₀ := by
          intro heq
          subst heq
          exact hcc (Option.some.inj (hc.symm.trans hcaller))
        refine ⟨θ, ?_, ?_⟩
        · rcases hown with rfl | ⟨a, ha, hstep⟩
          · exact hc
          · refine IoSys.caller_step hreach hc hstep ?_
            rw [ha]
            exact fun heq => hne (Option.some.inj heq).symm
        · simpa [IoSys.setErrno, IoSys.setCall, hne] using htold
  | @finish θ₀ c₀ call₀ hcaller hcall₀ =>
      by_cases hcc : c = c₀
      · subst hcc
        exact absurd hcall (by simp [IoSys.setCall])
      · simp only [IoSys.setCall, Function.update_of_ne hcc] at hcall
        exact h c call hcall

/-- **Told calls, run.** In every reachable state each call was told what its point needs. -/
theorem reach (h : (ioRuntime backend).Reach s) : CallsTold backend s := by
  refine Machine.ReachVia.invariant ?_ ?_ h
  · intro s hinit c call hcall
    rw [hinit.2] at hcall
    exact absurd hcall (by simp)
  · intro s a s' hs hI _ hstep
    exact hI.outcome (ioRuntime_sys hs) (ioStep_ok hstep)

end CallsTold

/-- **An I/O call returns what it was told.**  In every run, with any number of workers and
whatever other code does to `errno` and to the descriptors in between, a call of `io.c` that
returns has the result, and leaves the `errno` on the thread it returns on, that its own
answers call for. -/
theorem io_call_returns_what_it_was_told {backend : Backend} {s : IoSys} {θ : Thread} {c : Caller}
    {call : IoCall} {r : Int} (h : (ioRuntime backend).Reach s)
    (hcall : s.callAt θ = some (c, call)) (hret : call.point = .returned r) :
    IoResult (oNonblock backend) call.request call.events r (s.errno θ) := by
  obtain ⟨hc, hcall⟩ := IoSys.callAt_some hcall
  have htold := (CallsTold.reach h).running (ioRuntime_sys h) hc hcall
  obtain ⟨q, p, events⟩ := call
  dsimp only at hret
  subst hret
  exact htold

/-- Nothing was called yet. -/
def ioSmall (workers : Nat) : IoSys := ⟨small workers, fun _ => .other 0, fun _ => none⟩

/-- A read on worker 0 is interrupted, would block and waits.  The task comes back on worker 1,
while other code changed the `errno` of both workers, and its next attempt is refused. -/
def readMigrates : List IoAction :=
  (startUp 2 ++ dispatchOn 0).map .runtime ++
  [.call (.worker 0) (.read 5 100 8),
    .kernel (.worker 0) (.failed .EINTR) .EINTR, .go (.worker 0),
    .kernel (.worker 0) (.failed .EAGAIN) .EAGAIN, .go (.worker 0),
    .wait (.worker 0) .calm (.other 1), .clobber (.worker 1) .EINTR] ++
  resumedElsewhere.map .runtime ++
  [.clobber (.worker 0) .EAGAIN, .awake (.worker 1),
    .kernel (.worker 1) (.failed (.other 104)) .EINTR, .go (.worker 1)]

theorem io_call_returns_after_migration :
    ∃ s c call, (ioRuntime .epoll).Reach s ∧ s.callAt (.worker 1) = some (c, call) ∧
      call.point = .returned (-1) ∧ s.errno (.worker 1) = .other 104 ∧
      IoResult (oNonblock .epoll) call.request call.events (-1) (s.errno (.worker 1)) := by
  have hreach : (ioRuntime .epoll).Reach ((ioRuntime .epoll).after (ioSmall 2) readMigrates) :=
    Machine.reach_after ⟨small_init 2 (by decide), rfl⟩ (by decide +kernel)
  have hpoint : (((ioRuntime .epoll).after (ioSmall 2) readMigrates).callAt (.worker 1)).map
      (fun p => p.2.point) = some (.returned (-1)) := by decide +kernel
  obtain ⟨⟨c, call⟩, hcall, hret⟩ := Option.map_eq_some_iff.mp hpoint
  exact ⟨_, c, call, hreach, hcall, hret, by decide +kernel,
    io_call_returns_what_it_was_told hreach hcall hret⟩

end Croutine
