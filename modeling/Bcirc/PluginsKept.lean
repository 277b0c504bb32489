import Bcirc.HandlerAnswers

/-!
# Plugins stay loaded

What a server sends unloads no plugin, unless a line is the end of a list
of names or a PRIVMSG without a target.
-/

namespace Bcirc

open CProg CStr

/-! ## Runs -/

section Runs

variable (lib : TitleLib) {reg₀ : Registry Handler}

/-- By induction on how deep the calls may be nested. -/
theorem keeps_executeCallbacks (hreg : reg₀.RegistersOnly fun cbName f => f ∈ listeners cbName)
    (depth : Nat) : Keeps (Kept reg₀) (executeCallbacks (invoke lib depth) .str) := by
  have hidle : bucket reg₀.indexList callbackCallbacksExecuted = [] := by
    refine List.eq_nil_iff_forall_not_mem.mpr fun cb hcb => ?_
    have hlistens : cb.cbFunc ∈ listeners callbackCallbacksExecuted := hreg _ cb hcb
    rw [listeners_callbacksExecuted] at hlistens
    cases hlistens
  induction depth with
  | zero =>
      refine ⟨fun bot w hbot => ⟨hbot.index, hbot.plugins⟩, fun _ => ?_⟩
      exact executeCallbacks_kept hidle fun cb _ => Ensures.throw _
  | succ depth ih =>
      refine ⟨ih.world, fun {cbName args} hargs => ?_⟩
      refine executeCallbacks_kept hidle fun cb hcb => ?_
      exact ih.run lib (hargs cb.cbFunc (hreg cbName cb hcb))

theorem receive_kept (hreg : reg₀.RegistersOnly fun cbName f => f ∈ listeners cbName)
    (depth : Nat) {lines : List (Nat × Str)} (hlines : ∀ l ∈ lines, ¬ Unloads l.2) :
    Ensures (Kept reg₀) (receive lib depth lines) fun _ => True := by
  induction lines with
  | nil => exact Ensures.pure trivial
  | cons l lines ih =>
      obtain ⟨hl, hlines⟩ := List.forall_mem_cons.mp hlines
      have hraise := (keeps_executeCallbacks lib hreg depth).raise (admissible_serverRecv l.1 hl)
      exact Ensures.bind hraise fun _ _ => ih hlines

/-- Whichever of the plugins are loaded, and in whatever order: as long as
no line of the run is the end of a list of names or a PRIVMSG without a
target, none is unloaded. -/
theorem receive_keeps_plugins (loads : List Load) (depth : Nat) {lines : List (Nat × Str)}
    (hlines : ∀ l ∈ lines, ¬ Unloads l.2) {bot : Bot Handler World}
    (hbot : Kept (loadPlugins loads initIndex) bot) :
    (endState (receive lib depth lines bot)).reg.plugins = bot.reg.plugins := by
  have hreg := loadPlugins_registersOnly loads (registersOnly_initIndex _)
  have hend := (receive_kept lib hreg depth hlines bot hbot).1
  exact hend.plugins.trans hbot.plugins.symm

end Runs

def sampleLines : List (Nat × Str) :=
  [(0, ascii ":irc.net 001 bot :Welcome"), (0, ascii ":irc.net 353 bot = #c :bot a"),
    (0, ascii ":a!b@c PRIVMSG #c :see http://a.org")]

theorem receive_keeps_plugins_sample :
    (endState (receive sampleLib 2 sampleLines sampleBot)).reg.plugins =
      sampleBot.reg.plugins := by
  refine receive_keeps_plugins sampleLib sampleLoads 2 ?_ ⟨rfl, rfl⟩
  decide +kernel

/-- The channel handler has no answer for the end of a list of names but FAIL. -/
theorem receive_namesEnd :
    (endState (receive sampleLib 2 [(0, ascii ":irc.net 366 bot #c :End of /NAMES list.")]
      sampleBot)).reg.plugins ≠ sampleBot.reg.plugins := by
  decide +kernel

end Bcirc
