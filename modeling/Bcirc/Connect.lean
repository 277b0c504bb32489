import Bcirc.World

/-!
# Opening a connection (`server_connect` in `src/server.c`)

The sockets opened for a server and not closed, across the loop of
`try_rejoin`. `server_connect` does not look at what `getaddrinfo`
returns, and a socket that could not be connected stays open: the next
round stores another one over it.
-/

namespace Bcirc

open CProg CStr

variable {ρ : Type}

/-- What the system answers in one call: whether `getaddrinfo` succeeds,
the result of `socket` (none is `-1`), and whether `connect` succeeds. -/
structure ConnectOutcome where
  resolved : Bool
  socket : Option Nat
  connects : Bool
  deriving DecidableEq, Repr

/-- A call of `server_connect`: its result and the open sockets around it. -/
structure ConnectCall where
  res : Int
  before : List Nat
  after : List Nat
  deriving DecidableEq, Repr

/-- The fields of a server that `server_connect` sets; `sockets` are those
opened for it and still open, `calls` the calls made so far, `rest` is what
callbacks work on. -/
structure Connection (ρ : Type) where
  s : Int
  motdSent : Int
  connected : Int
  sockets : List Nat
  calls : List ConnectCall
  rest : ρ

/-! ## The functions -/

section Functions

variable (raise : Str → List Arg → ρ → ρ) (srv : Nat)

def serverConnect (o : ConnectOutcome) : Prog (Connection ρ) Int := do
  if !o.resolved then throw .uninitialized -- `res->ai_family`
  match o.socket with
  | none => do
      modify fun c => { c with s := -1 }
      pure (-2)
  | some fd => do
      modify fun c => { c with s := fd, sockets := c.sockets ++ [fd] }
      if !o.connects then return -3
      modify fun c => { c with motdSent := 0, connected := 1 }
      modify fun c => { c with rest := raise callbackServerConnected [.server srv] c.rest }
      pure 1

/-- The loop of `try_rejoin`, as far as the calls have been answered. -/
def rejoinLoop : List ConnectOutcome → Prog (Connection ρ) Unit
  | [] => pure ()
  | o :: outcomes => do
      let c ← get
      let res ← serverConnect raise srv o
      modify fun c' => { c' with calls := c'.calls ++ [⟨res, c.sockets, c'.sockets⟩] }
      if res = 1 then pure () else rejoinLoop outcomes

/-- `close(srv->s)`, the first thing `server_disconnect` does. -/
def closeConnection : Prog (Connection ρ) Int := do
  let c ← get
  if 0 ≤ c.s ∧ c.s.toNat ∈ c.sockets then
    modify fun c => { c with sockets := c.sockets.erase c.s.toNat }
    pure 0
  else pure (-1)

end Functions

/-! ## No socket is left behind -/

/-- One socket at most, and after a failed call the ones before it. During
a call the open sockets change once, at `socket`. -/
structure ConnectCall.Tidy (call : ConnectCall) : Prop where
  before : call.before.length ≤ 1
  after : call.after.length ≤ 1
  failed : call.res ≠ 1 → call.after = call.before

/-- No call fails but at `socket`. -/
def FailsAtSocket : List ConnectOutcome → Prop
  | [] => True
  | o :: outcomes =>
      o.resolved ∧ (o.socket.isSome ∧ o.connects ∨ o.socket = none ∧ FailsAtSocket outcomes)

section Loop

variable {raise : Str → List Arg → ρ → ρ} {srv : Nat}

/-- What a call does, by the first of its system calls to fail. -/
theorem serverConnect_cases (raise : Str → List Arg → ρ → ρ) (srv : Nat) (o : ConnectOutcome)
    (c : Connection ρ) :
    (¬ o.resolved ∧ serverConnect raise srv o c = .error .uninitialized c) ∨
    (o.resolved ∧ o.socket = none ∧
      serverConnect raise srv o c = .ok (-2) { c with s := -1 }) ∨
    (o.resolved ∧ ¬ o.connects ∧ ∃ fd, o.socket = some fd ∧
      serverConnect raise srv o c = .ok (-3) { c with s := fd, sockets := c.sockets ++ [fd] }) ∨
    (o.resolved ∧ o.connects ∧ ∃ fd, o.socket = some fd ∧
      serverConnect raise srv o c = .ok 1
        { c with
          s := fd
          motdSent := 0
          connected := 1
          sockets := c.sockets ++ [fd]
          rest := raise callbackServerConnected [.server srv] c.rest }) := by
  obtain ⟨resolved, socket, connects⟩ := o
  cases resolved with
  | false => exact Or.inl ⟨Bool.false_ne_true, rfl⟩
  | true =>
      cases socket with
      | none => exact Or.inr (Or.inl ⟨rfl, rfl, rfl⟩)
      | some fd =>
          cases connects with
          | false => exact Or.inr (Or.inr (Or.inl ⟨rfl, Bool.false_ne_true, fd, rfl, rfl⟩))
          | true => exact Or.inr (Or.inr (Or.inr ⟨rfl, rfl, fd, rfl, rfl⟩))

/-- A round of the loop after its call. -/
theorem rejoinLoop_cons {o : ConnectOutcome} {outcomes : List ConnectOutcome} {c c' : Connection ρ}
    {res : Int} (h : serverConnect raise srv o c = .ok res c') :
    rejoinLoop raise srv (o :: outcomes) c =
      (if res = 1 then pure () else rejoinLoop raise srv outcomes)
        { c' with calls := c'.calls ++ [⟨res, c.sockets, c'.sockets⟩] } := by
  rw [rejoinLoop, get_bind_run, bind_ok h]
  rfl

theorem rejoinLoop_unresolved {o : ConnectOutcome} (outcomes : List ConnectOutcome)
    {c : Connection ρ} (h : serverConnect raise srv o c = .error .uninitialized c) :
    rejoinLoop raise srv (o :: outcomes) c = .error .uninitialized c := by
  rw [rejoinLoop, get_bind_run, bind_error h]

theorem calls_subset {outcomes : List ConnectOutcome} {c c' : Connection ρ}
    (h : rejoinLoop raise srv outcomes c = .ok () c') : c.calls ⊆ c'.calls := by
  induction outcomes generalizing c with
  | nil =>
      obtain rfl := (EStateM.Result.ok.inj h).2
      exact fun _ hcall => hcall
  | cons o outcomes ih =>
      rcases serverConnect_cases raise srv o c with ⟨-, hrun⟩ | ⟨-, -, hrun⟩ |
        ⟨-, -, fd, -, hrun⟩ | ⟨-, -, fd, -, hrun⟩
      · rw [rejoinLoop_unresolved outcomes hrun] at h
        cases h
      · rw [rejoinLoop_cons hrun, if_neg (by decide)] at h
        exact List.Subset.trans (List.subset_append_left _ _) (ih h)
      · rw [rejoinLoop_cons hrun, if_neg (by decide)] at h
        exact List.Subset.trans (List.subset_append_left _ _) (ih h)
      · rw [rejoinLoop_cons hrun, if_pos rfl] at h
        rw [← (EStateM.Result.ok.inj h).2]
        exact List.subset_append_left _ _

/-- Every call of the run, those made before included, is tidy. -/
def TidyRun (raise : Str → List Arg → ρ → ρ) (srv : Nat) (outcomes : List ConnectOutcome)
    (c : Connection ρ) : Prop :=
  ∃ c', rejoinLoop raise srv outcomes c = .ok () c' ∧ ∀ call ∈ c'.calls, call.Tidy

theorem tidyRun_iff {outcomes : List ConnectOutcome} {c : Connection ρ} (hnone : c.sockets = [])
    (hcalls : ∀ call ∈ c.calls, call.Tidy) :
    TidyRun raise srv outcomes c ↔ FailsAtSocket outcomes := by
  induction outcomes generalizing c with
  | nil => exact ⟨fun _ => trivial, fun _ => ⟨c, rfl, hcalls⟩⟩
  | cons o outcomes ih =>
      unfold TidyRun FailsAtSocket
      rcases serverConnect_cases raise srv o c with ⟨hresolved, hrun⟩ | ⟨hresolved, hsocket, hrun⟩ |
        ⟨-, hconnects, fd, hsocket, hrun⟩ | ⟨hresolved, hconnects, fd, hsocket, hrun⟩
      · constructor
        · rintro ⟨c', h, -⟩
          rw [rejoinLoop_unresolved outcomes hrun] at h
          cases h
        · exact fun h => absurd h.1 hresolved
      · have hmore : ∀ call ∈ c.calls ++ [⟨-2, c.sockets, c.sockets⟩], ConnectCall.Tidy call := by
          rw [List.forall_mem_append, List.forall_mem_singleton]
          exact ⟨hcalls, by simp [hnone], by simp [hnone], fun _ => rfl⟩
        have hnext := ih (c := { c with s := -1, calls := c.calls ++ [⟨-2, c.sockets, c.sockets⟩] })
          hnone hmore
        rw [rejoinLoop_cons hrun, if_neg (by decide)]
        refine hnext.trans ⟨fun h => ⟨hresolved, Or.inr ⟨hsocket, h⟩⟩, ?_⟩
        rintro ⟨-, ⟨hsome, -⟩ | ⟨-, h⟩⟩
        · rw [hsocket] at hsome
          cases hsome
        · exact h
      · constructor
        · rintro ⟨c', h, htidy⟩
          rw [rejoinLoop_cons hrun, if_neg (by decide)] at h
          have hleft := htidy _ (calls_subset h (List.mem_append_right _ List.mem_cons_self))
          have hsame := hleft.failed (show (-3 : Int) ≠ 1 by decide)
          simp at hsame
        · rintro ⟨-, ⟨-, h⟩ | ⟨hnot, -⟩⟩
          · exact absurd h hconnects
          · rw [hsocket] at hnot
            cases hnot
      · refine ⟨fun _ => ⟨hresolved, Or.inl ⟨by rw [hsocket]; rfl, hconnects⟩⟩, fun _ => ?_⟩
        rw [rejoinLoop_cons hrun, if_pos rfl]
        refine ⟨_, rfl, ?_⟩
        rw [List.forall_mem_append, List.forall_mem_singleton]
        exact ⟨hcalls, by simp [hnone], by simp [hnone], fun h => absurd rfl h⟩

theorem closeConnection_eq {c : Connection ρ} {fd : Nat} (hs : c.s = fd)
    (hsockets : c.sockets = [fd]) :
    closeConnection c = .ok 0 { c with sockets := [] } := by
  unfold closeConnection
  rw [get_bind_run, if_pos (by rw [hs, hsockets]; simp), modify_bind_run, hs, hsockets]
  simp

/-- The loop after a lost connection: it keeps the open sockets in order if
and only if `getaddrinfo` and `connect` do not fail in it. -/
theorem rejoinLoop_tidy_iff (raise : Str → List Arg → ρ → ρ) (srv : Nat)
    (outcomes : List ConnectOutcome) {c : Connection ρ} {fd : Nat} (hs : c.s = fd)
    (hsockets : c.sockets = [fd]) (hcalls : c.calls = []) :
    TidyRun raise srv outcomes (endState (closeConnection c)) ↔ FailsAtSocket outcomes := by
  rw [closeConnection_eq hs hsockets]
  exact tidyRun_iff rfl (by simp [hcalls])

/-- No socket at first, and a connection at the second try. -/
theorem rejoinLoop_tidy_iff_sample :
    TidyRun (fun _ _ n => n + 1) 0 [⟨true, none, false⟩, ⟨true, some 7, true⟩]
      (endState (closeConnection ⟨4, 1, 1, [4], [], 0⟩)) := by
  refine (rejoinLoop_tidy_iff _ _ _ (rfl : (4 : Int) = (4 : Nat)) rfl rfl).mpr ?_
  exact ⟨rfl, Or.inr ⟨rfl, rfl, Or.inl ⟨rfl, rfl⟩⟩⟩

/-- Two refused connections leave two sockets open. -/
theorem rejoinLoop_untidy :
    ¬ ∀ outcomes, TidyRun (fun _ _ (u : Unit) => u) 0 outcomes
      (endState (closeConnection ⟨4, 1, 1, [4], [], ()⟩)) := by
  intro h
  obtain ⟨c', hrun, htidy⟩ := h [⟨true, some 4, false⟩, ⟨true, some 5, false⟩]
  have hcalls : c'.calls = [⟨-3, [], [4]⟩, ⟨-3, [4], [4, 5]⟩] :=
    (congrArg Connection.calls (EStateM.Result.ok.inj hrun).2).symm
  have hfirst := htidy ⟨-3, [], [4]⟩ (by rw [hcalls]; exact List.mem_cons_self)
  exact absurd (hfirst.failed (by decide)) (by decide)

end Loop

end Bcirc
