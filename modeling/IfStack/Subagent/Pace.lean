import IfStack.Monitor.Progress
import IfStack.Netlink.Clock
import IfStack.Subagent.Kernel

/-! # The pace of the process

What the monitor asks of the kernel, over a whole run of the process. The configuration has
been loaded, so that it reconciles no more than once a second; the clock never runs backwards;
nothing is assumed of what the kernel answers.
-/

namespace IfStack

open Foundation

/-- A configuration that is run reconciles at most once a second. -/
theorem FullConfig.Valid.slow {config : FullConfig} (valid : config.Valid) :
    initialDelay ≤ .fromSecs config.reconcile := by
  have positive := UInt64.le_iff_toNat_le.mp valid.reconcile
  rw [Duration.le_def]
  exact Nat.mul_le_mul_right _ positive

/-- Starts that are spread are no more than the seconds before the latest, and one. -/
theorem History.Spread.length_le {history : List Entry} (spread : Spread history)
    {newest : Duration} (latest : (starts history).head? = some newest)
    (below : newest.nanos < maxNanos) :
    (starts history).length ≤ newest.nanos / 10 ^ 9 + 1 := by
  obtain ⟨older, begun⟩ := List.head?_eq_some_iff.mp latest
  have bounded : ∀ start ∈ starts history, start ≤ newest := by
    unfold Spread at spread
    rw [begun] at spread ⊢
    refine List.forall_mem_cons.mpr ⟨le_rfl, fun start member => ?_⟩
    exact (Duration.le_saturatingAdd start _).trans ((List.pairwise_cons.mp spread).1 start member)
  have kept : (starts history).filter (fun start => decide (start ≤ newest)) = starts history :=
    List.filter_eq_self.mpr fun start member => decide_eq_true (bounded start member)
  have spaced := spread.spaced (fun start => decide (start ≤ newest)) fun start inside =>
    (Duration.le_def.mp (of_decide_eq_true inside)).trans_lt below
  rw [kept] at spaced
  rw [← List.length_map Duration.nanos]
  have inside : ∀ point ∈ (starts history).map Duration.nanos,
      0 ≤ point ∧ point ≤ 0 + newest.nanos := by
    intro point member
    obtain ⟨start, began, rfl⟩ := List.mem_map.mp member
    exact ⟨Nat.zero_le _, (Duration.le_def.mp (bounded start began)).trans (Nat.le_add_left _ _)⟩
  exact spaced.length_le (by decide) inside

namespace Subagent

variable {S ID : Type} [AgentxId ID] {codec : Codec ID} {config : FullConfig} {world : World S}
  {history : List Event} {subagent : Subagent (NetlinkSource S) ID}

/-- **The pace.** In every run of the process with a loaded configuration, on a clock that
never runs backwards: each inventory starts a second or more after those before it; there are
no more of them than seconds before the latest one, and one; and every sleep of the monitor,
but for one, is paid for by an attempt that ended, a link change or a wait cut short. -/
theorem Run.keeps_pace {files : Files} {args : List OsString} {defaultPath : OsString}
    (loaded : (load files args defaultPath).1 = .ok (.run config))
    (run : Run codec config (.withIo world) history subagent)
    (monotone : Calls.Nondecreasing subagent.monitor.source.world.log) :
    History.Spread (entries history) ∧
    (∀ newest, (History.starts (entries history)).head? = some newest →
      newest.nanos < maxNanos →
        (History.starts (entries history)).length ≤ newest.nanos / 10 ^ 9 + 1) ∧
    (entries history).countP Entry.sleeps ≤ (entries history).countP Entry.ends +
      (entries history).countP Entry.wakes + History.cutShort (entries history) + 1 := by
  have ordered := run.monitor.ordered monotone
  have spread := run.monitor.schedule.spread (load_valid files loaded).slow ordered
  exact ⟨spread, fun _ latest below => spread.length_le latest below,
    (run.monitor.schedule.pays ordered.monotone).owing⟩

/-- A file system whose files set the time between inventories. -/
def bondedFiles : Files where
  readToString _ := .ok "reconcile = 300"
  fromStr _ := .ok bondedConfig

/-- The files give the configuration, with no arguments. -/
theorem bonded_loaded : (load bondedFiles [] []).1 = .ok (.run bondedConfig) := by
  have socket : bondedConfig.socket.isEmpty = false := by decide +kernel
  change checkConfig bondedConfig none = _
  simp only [checkConfig, socket]
  rfl

/-- The bonded monitor waits after its inventory, loses the stream, waits for its retry, and
subscribes again for a second inventory. -/
theorem Run.keeps_pace_bonded :
    ∃ (history : List Event) (subagent : Subagent (NetlinkSource Nat) PlainId)
      (first second : Duration), Run .plain bondedConfig (.withIo .bonded) history subagent ∧
        History.starts (entries history) = [second, first] ∧
        first.saturatingAdd initialDelay ≤ second ∧ 2 ≤ second.nanos / 10 ^ 9 + 1 ∧
        (entries history).countP Entry.sleeps = 2 ∧
        2 ≤ (entries history).countP Entry.ends + (entries history).countP Entry.wakes +
          History.cutShort (entries history) + 1 := by
  have lost := Trace.turn (Trace.turn (Trace.turn Run.bondedServed rfl) rfl) rfl
  have slept := Trace.turn (Trace.turn (Trace.turn lost rfl) rfl) rfl
  have retried := Trace.turn (Trace.turn (Trace.turn slept rfl) rfl) rfl
  have run : Run Codec.plain bondedConfig (NetlinkSource.withIo .bonded) _ _ :=
    .of_monitor retried
  obtain ⟨spread, counts, paid⟩ :=
    Run.keeps_pace bonded_loaded run (by unfold Calls.Nondecreasing; decide +kernel)
  refine ⟨_, _, durationSince 3000000 0, durationSince 1025000000 0, run, rfl, ?_,
    counts _ rfl (by decide +kernel), rfl, paid⟩
  exact List.rel_of_pairwise_cons spread (List.mem_singleton_self _)

end Subagent
end IfStack
