import AndroidRenderer.Qemud.Serial
import Mathlib.Data.List.Perm.Basic

/-!
# The event loop

The looper keeps one hook for each monitored file descriptor in an array, and the
kernel keeps for each descriptor the mask and the address of a hook. A hook that is
unregistered stays in the array, marked as closing, until the callbacks of the turn
have run; then the last hook moves into its place. When the array grows it moves in
memory, and every descriptor gets the new address of its hook.
-/

namespace AndroidRenderer.Qemud

/-- A mask of `EPOLLIN`, `EPOLLOUT`, `EPOLLHUP` and `EPOLLERR`. -/
structure Events where
  epollin : Bool
  epollout : Bool
  epollhup : Bool
  epollerr : Bool
  deriving DecidableEq, Repr

namespace Events

def none : Events := ⟨false, false, false, false⟩
def EPOLLIN : Events := ⟨true, false, false, false⟩
def EPOLLOUT : Events := ⟨false, true, false, false⟩
def EPOLLHUP : Events := ⟨false, false, true, false⟩

/-- `a | b` -/
def or (a b : Events) : Events :=
  ⟨a.epollin || b.epollin, a.epollout || b.epollout, a.epollhup || b.epollhup,
    a.epollerr || b.epollerr⟩

/-- `a & ~b` -/
def andNot (a b : Events) : Events :=
  ⟨a.epollin && !b.epollin, a.epollout && !b.epollout, a.epollhup && !b.epollhup,
    a.epollerr && !b.epollerr⟩

/-- `events & (EPOLLHUP|EPOLLERR)` -/
def disconnected (events : Events) : Bool := events.epollhup || events.epollerr

/-- What the kernel may report for a descriptor with this mask: hang-ups and errors are
always reported. -/
def reportable (mask events : Events) : Bool :=
  decide (events ≠ none) && (mask.epollin || !events.epollin) && (mask.epollout || !events.epollout)

end Events

inductive EventFunc
  | fdhandlerEvent
  | fdhandlerAcceptEvent
  deriving DecidableEq, Repr

/-- `pending` and `closing` are the bits of `state`; `evUser` is an `FDHandler`. -/
structure LoopHook where
  fd : Nat
  wanted : Events
  events : Events
  pending : Bool
  closing : Bool
  evUser : Nat
  evFunc : EventFunc
  deriving DecidableEq, Repr

/-- A slot of the hook array; each reallocation makes a new array. -/
structure HookAddr where
  array : Nat
  slot : Nat
  deriving DecidableEq, Repr

/-- What the kernel keeps for a descriptor. -/
structure EpollEntry where
  fd : Nat
  events : Events
  hook : HookAddr
  deriving DecidableEq, Repr

/-- `num_fds` is the length of `hooks`. -/
structure Looper where
  maxFds : Nat
  array : Nat
  hooks : List LoopHook
  epoll : List EpollEntry

namespace Looper

/-- `looper_init` -/
def looperInit : Looper := ⟨0, 0, [], []⟩

/-! ## The kernel's table -/

/-- `EPOLL_CTL_ADD`, which fails for a descriptor that is monitored. -/
def epollAdd (epoll : List EpollEntry) (e : EpollEntry) : List EpollEntry :=
  if epoll.any fun e' => e'.fd == e.fd then epoll else epoll ++ [e]

/-- `EPOLL_CTL_MOD`, which fails for one that is not. -/
def epollMod (epoll : List EpollEntry) (e : EpollEntry) : List EpollEntry :=
  epoll.map fun e' => if e'.fd = e.fd then e else e'

/-- `EPOLL_CTL_DEL`; closing a descriptor has the same effect. -/
def epollDel (epoll : List EpollEntry) (fd : Nat) : List EpollEntry :=
  epoll.filter fun e => e.fd != fd

/-! ## Hooks -/

/-- `looper_find`: the first hook of the descriptor. -/
def looperFind (l : Looper) (fd : Nat) : Option Nat := l.hooks.findIdx? fun hook => hook.fd == fd

/-- `looper_grow` -/
def looperGrow (l : Looper) : Looper :=
  { l with
    maxFds := l.maxFds + (l.maxFds >>> 1) + 4
    array := l.array + 1
    epoll := l.hooks.zipIdx.foldl
      (fun epoll (hook, n) => epollMod epoll ⟨hook.fd, hook.wanted, ⟨l.array + 1, n⟩⟩) l.epoll }

/-- `looper_add` -/
def looperAdd (l : Looper) (fd : Nat) (func : EventFunc) (user : Nat) : Looper :=
  let l := if l.maxFds ≤ l.hooks.length then l.looperGrow else l
  { l with
    hooks := l.hooks ++ [⟨fd, .none, .none, false, false, user, func⟩]
    epoll := epollAdd l.epoll ⟨fd, .none, ⟨l.array, l.hooks.length⟩⟩ }

/-- `looper_del` -/
def looperDel (l : Looper) (fd : Nat) : Looper :=
  match l.looperFind fd with
  | none => l
  | some n =>
      { l with
        hooks := l.hooks.modify n fun hook => { hook with closing := true }
        epoll := epollDel l.epoll fd }

/-- Set the mask of a hook and tell the kernel, if it changes. -/
def setWanted (l : Looper) (fd : Nat) (update : Events → Events) : Looper :=
  match l.looperFind fd with
  | none => l
  | some n =>
      match l.hooks[n]? with
      | none => l
      | some hook =>
          if update hook.wanted = hook.wanted then l
          else
            { l with
              hooks := l.hooks.set n { hook with wanted := update hook.wanted }
              epoll := epollMod l.epoll ⟨fd, update hook.wanted, ⟨l.array, n⟩⟩ }

/-- `looper_enable` -/
def looperEnable (l : Looper) (fd : Nat) (events : Events) : Looper :=
  l.setWanted fd fun wanted => wanted.or events

/-- `looper_disable` -/
def looperDisable (l : Looper) (fd : Nat) (events : Events) : Looper :=
  l.setWanted fd fun wanted => wanted.andNot events

/-- `close`, which also ends the monitoring. -/
def closeFd (l : Looper) (fd : Nat) : Looper := { l with epoll := epollDel l.epoll fd }

/-! ## A turn of the loop -/

/-- The reports that `epoll_wait` may return: at most `num_fds`, for different
descriptors, with events that are monitored. -/
def mayReport (l : Looper) (reports : List (Nat × Events)) : Bool :=
  decide (reports ≠ []) && decide (reports.length ≤ l.hooks.length) &&
    decide (reports.map Prod.fst).Nodup &&
    reports.all fun r => l.epoll.any fun e => e.fd == r.1 && e.events.reportable r.2

/-- Store a report through the address of the hook. A slot behind `num_fds` is memory
that no one looks at before `looper_add` stores into it. -/
def markOne (l : Looper) (report : Nat × Events) : Except Fault Looper :=
  match l.epoll.find? fun e => e.fd == report.1 with
  | none => .error .notEnabled
  | some e =>
      if e.hook.array = l.array then
        .ok { l with
          hooks := l.hooks.modify e.hook.slot fun hook =>
            { hook with pending := true, closing := false, events := report.2 } }
      else .error .danglingHook

def mark (l : Looper) : List (Nat × Events) → Except Fault Looper
  | [] => .ok l
  | report :: reports => (l.markOne report).bind fun l => l.mark reports

/-- The callback of a hook is about to be called. -/
def fire (l : Looper) (n : Nat) : Looper :=
  { l with hooks := l.hooks.modify n fun hook => { hook with pending := false } }

/-- The loop that removes the closing hooks, from slot `n` on. -/
def sweep : Nat → Nat → Looper → Looper
  | 0, _, l => l
  | turns + 1, n, l =>
      match l.hooks[n]?, l.hooks.getLast? with
      | some hook, some last =>
          if hook.closing then
            sweep turns n { l with
              hooks := (l.hooks.set n last).dropLast
              epoll := epollMod l.epoll ⟨last.fd, last.wanted, ⟨l.array, n⟩⟩ }
          else sweep turns (n + 1) l
      | _, _ => l

end Looper

end AndroidRenderer.Qemud
