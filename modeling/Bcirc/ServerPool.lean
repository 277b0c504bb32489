import Bcirc.Core

/-!
# The server pool (`src/server.c`) and the signal handler of the core plugin

`server_list` holds the addresses of `server` records; `server_count` is
its length. `sig_handler` reads the first server afresh for every call it
makes, and the call before the last one has just taken a server out.
-/

namespace Bcirc

open CProg CStr

/-! ## The pool -/

/-- Under the mutex; the receive thread is started after that. -/
def addToServerpool (serverList : List Nat) (srv : Nat) : List Nat := serverList ++ [srv]

/-- The loop of `remove_from_serverpool`, with the list built so far. -/
def removeLoop (srv : Nat) : List Nat → List Nat → List Nat
  | [], newList => newList
  | s :: serverList, newList =>
      removeLoop srv serverList (if s ≠ srv then newList ++ [s] else newList)

def removeFromServerpool (serverList : List Nat) (srv : Nat) : List Nat :=
  removeLoop srv serverList []

theorem removeLoop_eq (srv : Nat) (serverList newList : List Nat) :
    removeLoop srv serverList newList = newList ++ serverList.filter (· ≠ srv) := by
  induction serverList generalizing newList with
  | nil => simp [removeLoop]
  | cons s serverList ih =>
      rw [removeLoop, ih]
      by_cases hs : s = srv
      · simp [hs]
      · simp [hs]

theorem removeFromServerpool_eq (serverList : List Nat) (srv : Nat) :
    removeFromServerpool serverList srv = serverList.filter (· ≠ srv) :=
  removeLoop_eq srv serverList []

theorem removeFromServerpool_head {srv : Nat} {rest : List Nat} (h : srv ∉ rest) :
    removeFromServerpool (srv :: rest) srv = rest := by
  have hrest : rest.filter (· ≠ srv) = rest := List.filter_eq_self.mpr fun s hs => by
    simpa using fun heq : s = srv => h (heq ▸ hs)
  rw [removeFromServerpool_eq, List.filter_cons_of_neg (by simp), hrest]

variable {φ : Type} (raise : Str → List Arg → Prog (Bot φ World) Int)

/-- Nobody reads the result of `close`. -/
def serverDisconnect (srv : Nat) (reason : Int) : Prog (Bot φ World) Unit := do
  let _ ← onWorld (getServer srv)
  let _ ← raise callbackServerDisconnected [.server srv, .int reason]

/-! ## The signal handler -/

/-- A call that `sig_handler` makes on a server. -/
inductive PoolCall where
  | quit (srv : Nat)
  | disconnect (srv : Nat)
  | remove (srv : Nat)
  | free (srv : Nat)
  deriving DecidableEq, Repr

def PoolCall.srv : PoolCall → Nat
  | .quit srv => srv
  | .disconnect srv => srv
  | .remove srv => srv
  | .free srv => srv

/-- The bot with `server_list`. `calls` is what the handler has done. -/
structure Process (φ : Type) where
  bot : Bot φ World
  serverList : List Nat
  calls : List PoolCall

def onBot {α : Type} (m : Prog (Bot φ World) α) : Prog (Process φ) α := fun s =>
  match m s.bot with
  | .ok a bot => .ok a { s with bot := bot }
  | .error e bot => .error e { s with bot := bot }

/-- `server_list[0]`; the list of no servers is `NULL`. -/
def firstServer : Prog (Process φ) Nat := do
  let s ← get
  orFault .nullPointer s.serverList.head?

def logCall (call : PoolCall) : Prog (Process φ) Unit :=
  modify fun s => { s with calls := s.calls ++ [call] }

/-- One round of the loop. `free_server` only leaves its trace in `calls`. -/
def sigRound : Prog (Process φ) Unit := do
  let srv ← firstServer
  logCall (.quit srv)
  let _ ← onBot (quit raise (ascii "Received killing signal") srv)
  let srv ← firstServer
  logCall (.disconnect srv)
  onBot (serverDisconnect raise srv serverIntentionalDc)
  let srv ← firstServer
  logCall (.remove srv)
  modify fun s => { s with serverList := removeFromServerpool s.serverList srv }
  let srv ← firstServer
  logCall (.free srv)

/-- `while (server_count > 0)`, with a bound on the rounds. -/
def sigLoop : Nat → Prog (Process φ) Unit
  | 0 => do
      let s ← get
      if s.serverList = [] then pure () else throw .diverges
  | n + 1 => do
      let s ← get
      if s.serverList = [] then pure ()
      else do
        sigRound raise
        sigLoop n

/-- Every round takes a server out, so as many rounds as servers are enough. -/
def sigHandler : Prog (Process φ) Unit := do
  let s ← get
  sigLoop raise s.serverList.length

/-! ## A shutdown as it should be -/

/-- Every server is quit, disconnected, removed and freed once, none is
used after it was freed, and the loop ends with an empty pool. -/
structure CleanShutdown (servers : List Nat)
    (r : EStateM.Result Fault (Process φ) Unit) : Prop where
  ends : returned r
  empty : (endState r).serverList = []
  quit : ∀ srv ∈ servers, (endState r).calls.count (.quit srv) = 1
  disconnect : ∀ srv ∈ servers, (endState r).calls.count (.disconnect srv) = 1
  remove : ∀ srv ∈ servers, (endState r).calls.count (.remove srv) = 1
  free : ∀ srv ∈ servers, (endState r).calls.count (.free srv) = 1
  unused : ∀ pre post srv, (endState r).calls = pre ++ .free srv :: post →
    ∀ call ∈ post, call.srv ≠ srv

theorem firstServer_some {s s' : Process φ} {srv : Nat} (h : firstServer s = .ok srv s') :
    s' = s ∧ s.serverList.head? = some srv := by
  obtain ⟨t, t', ht, hsrv⟩ := of_bind_ok h
  obtain ⟨rfl, rfl⟩ : s = t ∧ s = t' := by
    cases ht
    exact ⟨rfl, rfl⟩
  cases hhead : s.serverList.head? with
  | none =>
      rw [hhead] at hsrv
      cases hsrv
  | some first =>
      rw [hhead] at hsrv
      cases hsrv
      exact ⟨rfl, rfl⟩

/-- A round that comes to its end has found a server to free. -/
theorem sigRound_some {s s' : Process φ} (h : sigRound raise s = .ok () s') :
    s'.serverList ≠ [] := by
  obtain ⟨_, s₁, -, h⟩ := of_bind_ok h
  obtain ⟨_, s₂, -, h⟩ := of_bind_ok h
  obtain ⟨_, s₃, -, h⟩ := of_bind_ok h
  obtain ⟨_, s₄, -, h⟩ := of_bind_ok h
  obtain ⟨_, s₅, -, h⟩ := of_bind_ok h
  obtain ⟨_, s₆, -, h⟩ := of_bind_ok h
  obtain ⟨_, s₇, -, h⟩ := of_bind_ok h
  obtain ⟨_, s₈, -, h⟩ := of_bind_ok h
  obtain ⟨_, s₉, -, h⟩ := of_bind_ok h
  obtain ⟨srv, s₁₀, hfirst, hfree⟩ := of_bind_ok h
  obtain ⟨rfl, hhead⟩ := firstServer_some hfirst
  cases hfree
  intro hnil
  rw [show s₁₀.serverList = [] from hnil] at hhead
  cases hhead

theorem sigLoop_not_returned (n : Nat) {s : Process φ} (hs : s.serverList ≠ []) :
    returned (sigLoop raise n s) = false := by
  induction n generalizing s with
  | zero =>
      rw [sigLoop, get_bind_run, if_neg hs]
      rfl
  | succ n ih =>
      rw [sigLoop, get_bind_run, if_neg hs]
      cases hround : sigRound raise s with
      | error e s' =>
          rw [bind_error hround]
          rfl
      | ok u s' =>
          rw [bind_ok hround]
          exact ih (sigRound_some raise hround)

/-- The handler never shuts a pool down cleanly: the round of the last
server reads `server_list[0]` of the list it has just emptied. -/
theorem sigHandler_not_clean {s : Process φ} (hne : s.serverList ≠ []) :
    ¬ CleanShutdown s.serverList (sigHandler raise s) := by
  intro hclean
  have hreturned := hclean.ends
  unfold sigHandler at hreturned
  rw [get_bind_run, sigLoop_not_returned raise _ hne] at hreturned
  cases hreturned

def samplePool : Process Unit where
  bot := ⟨⟨[], [], 0⟩, { sampleWorld with servers := [sampleServer, sampleServer] }⟩
  serverList := [0, 1]
  calls := []

theorem sigHandler_not_clean_sample :
    ¬ CleanShutdown samplePool.serverList (sigHandler idleRaise samplePool) :=
  sigHandler_not_clean idleRaise (by decide)

/-- Two servers: the second one is freed, then quit, and then the empty
list is read. -/
theorem sigHandler_unclean :
    ¬ ∀ s : Process Unit, s.serverList ≠ [] → s.serverList.Nodup →
      CleanShutdown s.serverList (sigHandler idleRaise s) := by
  intro h
  have hends := (h samplePool (by decide) (by decide)).ends
  revert hends
  decide +kernel

/-! ## What the handler does instead -/

/-- The calls of the loop: every server but the first is freed in the round
before its own, and the first is never freed. -/
def shutdownCalls : List Nat → List PoolCall
  | [] => []
  | [srv] => [.quit srv, .disconnect srv, .remove srv]
  | srv :: next :: rest =>
      .quit srv :: .disconnect srv :: .remove srv :: .free next :: shutdownCalls (next :: rest)

/-- The servers of the pool are records. -/
def Process.Known (s : Process φ) (servers : List Nat) : Prop :=
  ∀ srv ∈ servers, srv < s.bot.world.servers.length

theorem onBot_ok {α : Type} {m : Prog (Bot φ World) α} {s : Process φ} {a : α}
    {bot : Bot φ World} (h : m s.bot = .ok a bot) : onBot m s = .ok a { s with bot := bot } := by
  unfold onBot
  rw [h]

theorem firstServer_ok {s : Process φ} {srv : Nat} {rest : List Nat}
    (h : s.serverList = srv :: rest) : firstServer s = .ok srv s := by
  unfold firstServer
  rw [get_bind_run, h]
  rfl

theorem length_afterSend (srv : Nat) (buf : Str) (w : World) :
    (afterSend srv buf w).servers.length = w.servers.length := by
  unfold afterSend
  split
  · rfl
  · exact List.length_modify _ _ _

theorem quit_ok (hraise : KeepsWorld raise) (reason : Str) {srv : Nat} {bot : Bot φ World}
    (hsrv : srv < bot.world.servers.length) :
    ∃ code bot', quit raise reason srv bot = .ok code bot' ∧
      bot'.world.servers.length = bot.world.servers.length := by
  obtain ⟨code, reg, hsend⟩ := serverSend_ok raise hraise
    (ascii "QUIT :" ++ reason ++ ascii "\r\n") (List.getElem?_eq_getElem hsrv)
  exact ⟨code, _, hsend, length_afterSend srv _ bot.world⟩

theorem serverDisconnect_ok (hraise : KeepsWorld raise) {srv : Nat} {bot : Bot φ World}
    (hsrv : srv < bot.world.servers.length) (reason : Int) :
    ∃ bot', serverDisconnect raise srv reason bot = .ok () bot' ∧
      bot'.world = bot.world := by
  obtain ⟨code, reg, hcode⟩ :=
    hraise callbackServerDisconnected [.server srv, .int reason] bot
  refine ⟨⟨reg, bot.world⟩, ?_, rfl⟩
  unfold serverDisconnect
  rw [bind_ok (onWorld_ok (getServer_ok (List.getElem?_eq_getElem hsrv))), bind_ok hcode]
  rfl

/-- A round quits, disconnects and removes the first server. What it frees
is the next one, if there is one. -/
theorem sigRound_run (hraise : KeepsWorld raise) {s : Process φ} {srv : Nat} {rest : List Nat}
    (hs : s.serverList = srv :: rest) (hsrv : srv ∉ rest) (hknown : s.Known (srv :: rest)) :
    ∃ s' : Process φ, s'.serverList = rest ∧ s'.Known rest ∧
      s'.calls = s.calls ++ [.quit srv, .disconnect srv, .remove srv] ∧
      sigRound raise s = (do let next ← firstServer; logCall (.free next)) s' := by
  have hlt : srv < s.bot.world.servers.length := hknown srv List.mem_cons_self
  obtain ⟨code, bot₁, hquit, hlen⟩ :=
    quit_ok raise hraise (ascii "Received killing signal") hlt
  obtain ⟨bot₂, hdisconnect, hworld⟩ :=
    serverDisconnect_ok raise hraise (hlen ▸ hlt) serverIntentionalDc
  let s₁ : Process φ := ⟨s.bot, s.serverList, s.calls ++ [.quit srv]⟩
  let s₂ : Process φ := { s₁ with bot := bot₁ }
  let s₃ : Process φ := { s₂ with calls := s₂.calls ++ [.disconnect srv] }
  let s₄ : Process φ := { s₃ with bot := bot₂ }
  let s₅ : Process φ := { s₄ with calls := s₄.calls ++ [.remove srv] }
  have hquit' : onBot (quit raise (ascii "Received killing signal") srv) s₁ = .ok code s₂ :=
    onBot_ok hquit
  have hdisconnect' : onBot (serverDisconnect raise srv serverIntentionalDc) s₃ = .ok () s₄ :=
    onBot_ok hdisconnect
  have hfirst : firstServer s = .ok srv s := firstServer_ok hs
  have hfirst₂ : firstServer s₂ = .ok srv s₂ := firstServer_ok hs
  have hfirst₄ : firstServer s₄ = .ok srv s₄ := firstServer_ok hs
  refine ⟨{ s₅ with serverList := removeFromServerpool s₅.serverList srv }, ?_, ?_, ?_, ?_⟩
  · show removeFromServerpool s.serverList srv = rest
    rw [hs, removeFromServerpool_head hsrv]
  · intro other hother
    show other < bot₂.world.servers.length
    rw [hworld, hlen]
    exact hknown other (List.mem_cons_of_mem _ hother)
  · show s.calls ++ [.quit srv] ++ [.disconnect srv] ++ [.remove srv] = _
    simp
  · unfold sigRound
    rw [bind_ok hfirst]
    show (onBot (quit raise (ascii "Received killing signal") srv) >>= _) s₁ = _
    rw [bind_ok hquit', bind_ok hfirst₂]
    show (onBot (serverDisconnect raise srv serverIntentionalDc) >>= _) s₃ = _
    rw [bind_ok hdisconnect', bind_ok hfirst₄]
    rfl

/-- Where the callbacks leave the records alone, the loop makes exactly the
calls `shutdownCalls` and ends at the null pointer. -/
theorem sigLoop_run (hraise : KeepsWorld raise) (n : Nat) {s : Process φ} {srv : Nat}
    {rest : List Nat} (hs : s.serverList = srv :: rest) (hnodup : (srv :: rest).Nodup)
    (hknown : s.Known (srv :: rest)) (hn : rest.length < n) :
    ∃ s', sigLoop raise n s = .error .nullPointer s' ∧ s'.serverList = [] ∧
      s'.calls = s.calls ++ shutdownCalls (srv :: rest) := by
  induction n generalizing s srv rest with
  | zero => exact absurd hn (Nat.not_lt_zero _)
  | succ n ih =>
      have hne : s.serverList ≠ [] := by rw [hs]; exact List.cons_ne_nil _ _
      obtain ⟨hsrv, hrest⟩ := List.nodup_cons.mp hnodup
      obtain ⟨s', hlist, hknown', hcalls, hround⟩ := sigRound_run raise hraise hs hsrv hknown
      rw [sigLoop, get_bind_run, if_neg hne]
      cases rest with
      | nil =>
          have hfault : firstServer s' = .error .nullPointer s' := by
            unfold firstServer
            rw [get_bind_run, hlist]
            rfl
          rw [bind_error hfault] at hround
          exact ⟨s', bind_error hround, hlist, hcalls⟩
      | cons next rest =>
          rw [bind_ok (firstServer_ok hlist)] at hround
          have hround' : sigRound raise s =
              .ok () { s' with calls := s'.calls ++ [.free next] } := hround
          obtain ⟨s'', hloop, hempty, hcalls'⟩ :=
            ih (s := { s' with calls := s'.calls ++ [.free next] }) hlist hrest
              hknown'
              (Nat.lt_of_succ_lt_succ hn)
          refine ⟨s'', (bind_ok hround').trans hloop, hempty, ?_⟩
          rw [hcalls', hcalls]
          simp [shutdownCalls]

/-- No run of the handler frees the first server, and every other one is
quit after it was freed. -/
theorem sigHandler_run (hraise : KeepsWorld raise) {s : Process φ} {srv : Nat}
    {rest : List Nat} (hs : s.serverList = srv :: rest) (hnodup : (srv :: rest).Nodup)
    (hknown : s.Known (srv :: rest)) :
    ∃ s', sigHandler raise s = .error .nullPointer s' ∧ s'.serverList = [] ∧
      s'.calls = s.calls ++ shutdownCalls (srv :: rest) := by
  unfold sigHandler
  rw [get_bind_run, hs]
  exact sigLoop_run raise hraise _ hs hnodup hknown (Nat.lt_succ_self _)

end Bcirc
