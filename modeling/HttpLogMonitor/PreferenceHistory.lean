import HttpLogMonitor.TrackerReplacement

/-!
# The history of the sniffer loop

A handled preference is one after which the queue was found empty. The
history of a run lists them, each with the commands given to other
threads on its behalf. The commands given and those still to come make up
the outcome of the handling, so that between handlings the variables and
the commands are known from the preferences handled.
-/

namespace HttpLogMonitor

namespace SnifferCommand

variable {PcapIf : Type}

def runLoop : SnifferCommand PcapIf → Option PcapIf
  | .startLoop device => some device
  | _ => none

def timer : SnifferCommand PcapIf → Option Int32
  | .startTimer period => some period
  | _ => none

def tracker : SnifferCommand PcapIf → Option (Int32 × Int32)
  | .startAlert threshold gap => some (threshold, gap)
  | _ => none

end SnifferCommand

structure HandledPreference (PcapIf : Type) where
  preference : UserPreferences PcapIf
  commands : List (SnifferCommand PcapIf)
  deriving DecidableEq

namespace HandledPreference

variable {PcapIf : Type}

def add (h : HandledPreference PcapIf) (cs : List (SnifferCommand PcapIf)) :
    HandledPreference PcapIf := { h with commands := h.commands ++ cs }

/-- The devices of the capture threads created. -/
def runLoops (h : HandledPreference PcapIf) : List PcapIf :=
  h.commands.filterMap SnifferCommand.runLoop

/-- The periods of the timers created. -/
def timers (h : HandledPreference PcapIf) : List Int32 :=
  h.commands.filterMap SnifferCommand.timer

/-- The thresholds and gaps of the alert trackers created. -/
def trackers (h : HandledPreference PcapIf) : List (Int32 × Int32) :=
  h.commands.filterMap SnifferCommand.tracker

/-- A place in a history is its last one or lies before it. -/
theorem snoc_cases {handled pre post : List (HandledPreference PcapIf)}
    {h k : HandledPreference PcapIf} (heq : handled ++ [h] = pre ++ k :: post) :
    post = [] ∧ handled = pre ∧ h = k ∨ ∃ rest, handled = pre ++ k :: rest := by
  rcases List.eq_nil_or_concat' post with rfl | ⟨rest, l, rfl⟩
  · obtain ⟨hpre, hlast⟩ := List.append_inj' heq rfl
    exact Or.inl ⟨rfl, hpre, List.singleton_inj.1 hlast⟩
  · rw [← List.cons_append, ← List.append_assoc] at heq
    exact Or.inr ⟨rest, (List.append_inj' heq rfl).1⟩

end HandledPreference

def UserPreferences.Positive {PcapIf : Type} (p : UserPreferences PcapIf) : Prop :=
  0 < p.timeGapInMillisecond.toInt ∧ 0 < p.alertGapInMillisecond.toInt

namespace Sniffer

variable {PcapIf : Type}

/-! ## Between handlings -/

/-- The variables once the preferences have been handled. -/
def settled (threshold : Int32) (handled : List (HandledPreference PcapIf)) :
    SnifferVars PcapIf :=
  match handled.getLast? with
  | none => (initial threshold).vars
  | some h => Monitor.varsOf h.preference

@[simp] theorem settled_nil (threshold : Int32) :
    settled threshold [] = (initial threshold : Sniffer PcapIf).vars := rfl

@[simp] theorem settled_snoc (threshold : Int32) (handled : List (HandledPreference PcapIf))
    (h : HandledPreference PcapIf) :
    settled threshold (handled ++ [h]) = Monitor.varsOf h.preference := by
  simp [settled]

theorem settled_loopThread (threshold : Int32) (handled : List (HandledPreference PcapIf)) :
    (settled threshold handled).loopThread = (settled threshold handled).device := by
  induction handled using List.reverseRecOn with
  | nil => rfl
  | append_singleton handled h _ =>
      rw [settled_snoc]
      rfl

theorem newVars_settled {p : UserPreferences PcapIf} (hp : p.Positive) (threshold : Int32)
    (handled : List (HandledPreference PcapIf)) :
    newVars p (settled threshold handled) = Monitor.varsOf p := by
  have htime := Monitor.ne_zero_of_pos hp.1
  have halert := Monitor.ne_zero_of_pos hp.2
  induction handled using List.reverseRecOn with
  | nil => simp [newVars, Monitor.varsOf, initial, htime, halert]
  | append_singleton handled h _ =>
      rw [settled_snoc, newVars, Monitor.varsOf, Monitor.varsOf]
      congr 1
      · split_ifs with hsame
        · rw [hsame]
        · rfl
      · split_ifs with hsame
        · rw [hsame.1, hsame.2]
        · rfl

variable [DecidableEq PcapIf]

/-- Every handling has given the commands of its outcome. -/
def Complete (threshold : Int32) (handled : List (HandledPreference PcapIf)) : Prop :=
  ∀ pre h post, handled = pre ++ h :: post → h.preference.Positive ∧
    h.commands = (replaceLoop h.preference (settled threshold pre)).commands

theorem complete_nil (threshold : Int32) :
    Complete threshold ([] : List (HandledPreference PcapIf)) := by
  intro pre h post heq
  simp at heq

theorem Complete.snoc {threshold : Int32} {handled : List (HandledPreference PcapIf)}
    (hc : Complete threshold handled) {h : HandledPreference PcapIf} (hpos : h.preference.Positive)
    (hh : h.commands = (replaceLoop h.preference (settled threshold handled)).commands) :
    Complete threshold (handled ++ [h]) := by
  intro pre k post heq
  rcases HandledPreference.snoc_cases heq with ⟨-, rfl, rfl⟩ | ⟨rest, hrest⟩
  · exact ⟨hpos, hh⟩
  · exact hc pre k rest hrest

/-! ## The history of the loop -/

/-- What the next step of the loop adds to the history. -/
def record (u : Sniffer PcapIf) (handled : List (HandledPreference PcapIf)) :
    List (HandledPreference PcapIf) :=
  match u.pc with
  | .emptyTest p => if u.preferenceQueue.isEmpty then handled ++ [⟨p, []⟩] else handled
  | _ => handled.modifyLast fun h => h.add (u.step.bind Prod.snd).toList

theorem record_eq {u v : Sniffer PcapIf} {c : Option (SnifferCommand PcapIf)}
    (hs : u.step = some (v, c)) (hpc : ∀ p, u.pc ≠ .emptyTest p)
    (handled : List (HandledPreference PcapIf)) :
    u.record handled = handled.modifyLast fun h => h.add c.toList := by
  unfold record
  split
  · exact (hpc _ ‹_›).elim
  · simp [hs]

theorem map_record {u v : Sniffer PcapIf} {c : Option (SnifferCommand PcapIf)}
    (hs : u.step = some (v, c)) (hpc : ∀ p, u.pc ≠ .emptyTest p)
    (handled : List (HandledPreference PcapIf)) :
    (u.record handled).map HandledPreference.preference =
      handled.map HandledPreference.preference := by
  rw [record_eq hs hpc]
  apply Threads.map_modifyLast_of_eq
  intro h
  rfl

/-- A handling under way has given its first commands, and its outcome
from here on are the others and the variables. -/
inductive Progress (threshold : Int32) :
    List (HandledPreference PcapIf) → SnifferPc PcapIf → SnifferVars PcapIf → Prop
  | rest {handled : List (HandledPreference PcapIf)} {pc : SnifferPc PcapIf} (hrank : rank pc = 0)
      (hc : Complete threshold handled) : Progress threshold handled pc (settled threshold handled)
  | busy {handled : List (HandledPreference PcapIf)} {h : HandledPreference PcapIf}
      {pc : SnifferPc PcapIf} {x : SnifferVars PcapIf} (hrank : rank pc ≠ 0)
      (hc : Complete threshold handled) (hp : preference pc = some h.preference)
      (hout : (outcome x pc).after h.commands =
        replaceLoop h.preference (settled threshold handled)) :
      Progress threshold (handled ++ [h]) pc x

theorem Progress.stepVars {threshold : Int32} {handled : List (HandledPreference PcapIf)}
    {h : HandledPreference PcapIf} {pc pc' : SnifferPc PcapIf} {x x' : SnifferVars PcapIf}
    {c : Option (SnifferCommand PcapIf)} (hc : Complete threshold handled)
    (hp : preference pc = some h.preference) (hpos : h.preference.Positive)
    (hout : (outcome x pc).after h.commands = replaceLoop h.preference (settled threshold handled))
    (hs : stepVars x pc = some (pc', x', c)) :
    Progress threshold (handled ++ [h.add c.toList]) pc' x' := by
  have hout' : (outcome x' pc').after (h.add c.toList).commands =
      replaceLoop h.preference (settled threshold handled) := by
    rw [← hout, stepVars_outcome hs]
    simp [Outcome.after, HandledPreference.add]
  by_cases hrank : rank pc' = 0
  · rw [outcome_of_rank_eq_zero hrank] at hout'
    have hvars : x' = Monitor.varsOf h.preference := by
      calc
        x' = (replaceLoop h.preference (settled threshold handled)).vars := by rw [← hout']; rfl
        _ = newVars h.preference (settled threshold handled) :=
          (replaceLoop_vars _ _ (settled_loopThread threshold handled) (Or.inl hpos.1)).2
        _ = Monitor.varsOf h.preference := newVars_settled hpos threshold handled
    have hcomplete : Complete threshold (handled ++ [h.add c.toList]) := by
      apply hc.snoc (h := h.add c.toList) hpos
      change _ = (replaceLoop h.preference (settled threshold handled)).commands
      rw [← hout']
      simp [Outcome.after]
    have hrest := Progress.rest hrank hcomplete
    rwa [settled_snoc, HandledPreference.add, ← hvars] at hrest
  · obtain ⟨q, hq⟩ : ∃ q, preference pc' = some q := by
      cases pc' <;> first | exact ⟨_, rfl⟩ | exact (hrank rfl).elim
    have hqp : q = h.preference := Option.some.inj ((stepVars_preference hs hq).symm.trans hp)
    exact .busy hrank hc (hq.trans (congrArg some hqp)) hout'

theorem Progress.of_rank {threshold : Int32} {handled : List (HandledPreference PcapIf)}
    {pc : SnifferPc PcapIf} {x : SnifferVars PcapIf} (h : Progress threshold handled pc x)
    (hrank : rank pc = 0) : Complete threshold handled ∧ x = settled threshold handled := by
  cases h with
  | rest _ hc => exact ⟨hc, rfl⟩
  | busy hbusy => exact (hbusy hrank).elim

theorem Progress.complete {threshold : Int32} {handled pre post : List (HandledPreference PcapIf)}
    {h : HandledPreference PcapIf} {pc : SnifferPc PcapIf} {x : SnifferVars PcapIf}
    (hprogress : Progress threshold handled pc x) (heq : handled = pre ++ h :: post)
    (hdone : post ≠ [] ∨ rank pc = 0) : h.preference.Positive ∧
      h.commands = (replaceLoop h.preference (settled threshold pre)).commands := by
  cases hprogress with
  | rest _ hc => exact hc pre h post heq
  | busy hbusy hc =>
      rcases HandledPreference.snoc_cases heq with ⟨hnil, -, -⟩ | ⟨rest, hrest⟩
      · exact (hdone.elim (fun hne => hne hnil) hbusy).elim
      · exact hc pre h rest hrest

theorem Progress.exists_snoc {threshold : Int32} {handled : List (HandledPreference PcapIf)}
    {pc : SnifferPc PcapIf} {x : SnifferVars PcapIf} (h : Progress threshold handled pc x)
    (hrank : rank pc ≠ 0) : ∃ pre k, handled = pre ++ [k] := by
  cases h with
  | rest hrest hc => exact (hrank hrest).elim
  | busy => exact ⟨_, _, rfl⟩

theorem record_quiet {u v : Sniffer PcapIf} (hs : u.step = some (v, none))
    (hpc : ∀ p, u.pc ≠ .emptyTest p) (handled : List (HandledPreference PcapIf)) :
    u.record handled = handled := by
  have hsame : ∀ h : HandledPreference PcapIf, id (h.add []) = id h := by
    simp [HandledPreference.add]
  rw [record_eq hs hpc]
  simpa using Threads.map_modifyLast_of_eq hsame handled

theorem record_skip {u : Sniffer PcapIf} {p : UserPreferences PcapIf} (hpc : u.pc = .emptyTest p)
    (hq : u.preferenceQueue.items ≠ []) (handled : List (HandledPreference PcapIf)) :
    u.record handled = handled := by
  simp [record, hpc, Fifo.isEmpty, hq]

theorem record_handle {u : Sniffer PcapIf} {p : UserPreferences PcapIf} (hpc : u.pc = .emptyTest p)
    (hq : u.preferenceQueue.items = []) (handled : List (HandledPreference PcapIf)) :
    u.record handled = handled ++ [⟨p, []⟩] := by
  simp [record, hpc, Fifo.isEmpty, hq]

theorem ne_emptyTest_of_stepVars {x x' : SnifferVars PcapIf} {pc pc' : SnifferPc PcapIf}
    {c : Option (SnifferCommand PcapIf)} (h : stepVars x pc = some (pc', x', c))
    (p : UserPreferences PcapIf) : pc ≠ .emptyTest p := by
  rintro rfl
  cases h

theorem Progress.step {threshold : Int32} {handled : List (HandledPreference PcapIf)}
    {u v : Sniffer PcapIf} {c : Option (SnifferCommand PcapIf)}
    (hall : u.All UserPreferences.Positive) (h : Progress threshold handled u.pc u.vars)
    (hs : u.step = some (v, c)) : Progress threshold (u.record handled) v.pc v.vars := by
  cases step_cases hs with
  | take p hpc hpeek =>
      obtain ⟨hc, hvars⟩ := h.of_rank (by rw [hpc]; rfl)
      rw [record_quiet hs (by simp [hpc])]
      exact hvars ▸ .rest rfl hc
  | skip p hpc hq =>
      obtain ⟨hc, hvars⟩ := h.of_rank (by rw [hpc]; rfl)
      rw [record_skip hpc hq]
      exact hvars ▸ .rest rfl hc
  | handle p hpc hq =>
      obtain ⟨hc, hvars⟩ := h.of_rank (by rw [hpc]; rfl)
      rw [record_handle hpc hq]
      apply Progress.busy (by simp [goto, rank]) hc rfl
      rw [← hvars]
      rfl
  | vars hstep =>
      have htest := ne_emptyTest_of_stepVars hstep
      rw [record_eq hs htest]
      generalize hpc : u.pc = pc at h hstep
      generalize u.vars = x at h hstep
      cases h with
      | rest hrank hc =>
          have hnone := stepVars_eq_none_iff (x := settled threshold handled).2 hrank
          simp [hnone] at hstep
      | busy hrank hc hp hout =>
          rw [List.modifyLast_concat]
          exact stepVars hc hp (hall.handled _ (hpc ▸ hp)) hout hstep

/-! ## The newest preference -/

def newest (u : Sniffer PcapIf) (handled : List (HandledPreference PcapIf)) :
    Option (UserPreferences PcapIf) :=
  match u.pc with
  | .emptyTest p => some p
  | _ => (handled.map HandledPreference.preference).getLast?

/-- With nothing in the queue the last preference put is under test, or
the last one handled. -/
def Newest (u : Sniffer PcapIf) (handled : List (HandledPreference PcapIf)) : Prop :=
  u.preferenceQueue.items = [] → u.preferenceQueue.log.getLast? = u.newest handled

omit [DecidableEq PcapIf] in
theorem newest_eq {u : Sniffer PcapIf} (hpc : ∀ p, u.pc ≠ .emptyTest p)
    (handled : List (HandledPreference PcapIf)) :
    u.newest handled = (handled.map HandledPreference.preference).getLast? := by
  unfold newest
  split
  · exact (hpc _ ‹_›).elim
  · rfl

theorem Newest.step {u v : Sniffer PcapIf} {c : Option (SnifferCommand PcapIf)}
    {handled : List (HandledPreference PcapIf)} (h : u.Newest handled)
    (hs : u.step = some (v, c)) : v.Newest (u.record handled) := by
  intro hempty
  cases step_cases hs with
  | take p hpc hpeek =>
      obtain ⟨earlier, hlog⟩ := u.preferenceQueue.items_suffix
      rw [Fifo.items_eq_of_peek hpeek, hempty] at hlog
      change u.preferenceQueue.log.getLast? = some p
      rw [← hlog, List.getLast?_concat]
  | skip p hpc hq => exact (hq hempty).elim
  | handle p hpc hq =>
      have hlast := h hempty
      rw [newest, hpc] at hlast
      rw [record_handle hpc hq, newest_eq (by simp [goto])]
      change u.preferenceQueue.log.getLast? = _
      simpa using hlast
  | vars hstep =>
      have htest := ne_emptyTest_of_stepVars hstep
      have hlast := h hempty
      rw [newest_eq htest] at hlast
      rw [newest_eq (stepVars_ne_emptyTest hstep), map_record hs htest]
      exact hlast

/-! ## The variables and the workers -/

theorem stepVars_loopThread {x x' : SnifferVars PcapIf} {pc pc' : SnifferPc PcapIf}
    {c : Option (SnifferCommand PcapIf)} (h : stepVars x pc = some (pc', x', c)) :
    x'.loopThread = (c.bind SnifferCommand.runLoop).or x.loopThread := by
  cases stepVars_cases h <;> rfl

theorem stepVars_alertThread {x x' : SnifferVars PcapIf} {pc pc' : SnifferPc PcapIf}
    {c : Option (SnifferCommand PcapIf)} (h : stepVars x pc = some (pc', x', c)) :
    x'.alertThread = (c.bind SnifferCommand.tracker).or x.alertThread := by
  cases stepVars_cases h <;> rfl

/-- A timer is cancelled only if there is one, and started only if there
is none. -/
def TimerReady (pc : SnifferPc PcapIf) (x : SnifferVars PcapIf) : Prop :=
  match pc with
  | .cancelTimer _ => x.mostHitsTimer.isSome
  | .startTimer _ => x.mostHitsTimer = none
  | _ => True

/-- What a step does to the timer that is not cancelled. -/
inductive TimerStep : Option Int32 → Option (SnifferCommand PcapIf) → Option Int32 → Prop
  | same {timer : Option Int32} {c : Option (SnifferCommand PcapIf)}
      (hcancel : c ≠ some .cancelTimer) (hstart : c.bind SnifferCommand.timer = none) :
      TimerStep timer c timer
  | cancel (period : Int32) : TimerStep (some period) (some .cancelTimer) none
  | start (period : Int32) : TimerStep none (some (.startTimer period)) (some period)

theorem TimerReady.stepVars {x x' : SnifferVars PcapIf} {pc pc' : SnifferPc PcapIf}
    {c : Option (SnifferCommand PcapIf)} (hpos : ∀ p, preference pc = some p → p.Positive)
    (hr : TimerReady pc x) (h : stepVars x pc = some (pc', x', c)) :
    TimerReady pc' x' ∧ TimerStep x.mostHitsTimer c x'.mostHitsTimer := by
  cases stepVars_cases h with
  | replaceTime p hnew hsome => exact ⟨hsome, .same (by simp) rfl⟩
  | firstTime p hnew hnone => exact ⟨hnone, .same (by simp) rfl⟩
  | cancelTimer p =>
      obtain ⟨period, hperiod⟩ := Option.isSome_iff_exists.1 hr
      exact ⟨rfl, hperiod ▸ .cancel period⟩
  | startTimer p _ =>
      exact ⟨trivial, (show x.mostHitsTimer = none from hr) ▸ .start p.timeGapInMillisecond⟩
  | illegalPeriod p hillegal => exact (hillegal (hpos p rfl).1).elim
  | _ => exact ⟨trivial, .same (by simp) rfl⟩

/-! ## What a handling creates -/

section Commands

variable (p : UserPreferences PcapIf) (x : SnifferVars PcapIf)

/-- Each of the three parts of a handling creates workers of one kind. -/
theorem loopCommands_creates :
    (loopCommands p x).filterMap SnifferCommand.runLoop =
        (if x.device = some p.device then [] else [p.device]) ∧
      (loopCommands p x).filterMap SnifferCommand.timer = [] ∧
      (loopCommands p x).filterMap SnifferCommand.tracker = [] := by
  unfold loopCommands
  split_ifs <;> exact ⟨rfl, rfl, rfl⟩

omit [DecidableEq PcapIf] in
theorem timerCommands_creates :
    (timerCommands p x).filterMap SnifferCommand.runLoop = [] ∧
      (timerCommands p x).filterMap SnifferCommand.timer =
        (if p.timeGapInMillisecond = x.timeGapInMillisecond then []
        else [p.timeGapInMillisecond]) ∧
      (timerCommands p x).filterMap SnifferCommand.tracker = [] := by
  unfold timerCommands
  split_ifs <;> exact ⟨rfl, rfl, rfl⟩

omit [DecidableEq PcapIf] in
theorem alertCommands_creates :
    (alertCommands p x).filterMap SnifferCommand.runLoop = [] ∧
      (alertCommands p x).filterMap SnifferCommand.timer = [] ∧
      (alertCommands p x).filterMap SnifferCommand.tracker =
        if p.alertGapInMillisecond = x.alertGapInMillisecond ∧ p.threshold = x.threshold then []
        else [p.alertSettings] := by
  unfold alertCommands
  split_ifs <;> exact ⟨rfl, rfl, rfl⟩

end Commands

section Handling

variable {p : UserPreferences PcapIf} (hpos : 0 < p.timeGapInMillisecond.toInt)
  (x : SnifferVars PcapIf)

include hpos

theorem replaceLoop_runLoops : (replaceLoop p x).commands.filterMap SnifferCommand.runLoop =
    if x.device = some p.device then [] else [p.device] := by
  rw [replaceLoop_commands p x hpos, List.filterMap_append, List.filterMap_append,
    (loopCommands_creates p x).1, (timerCommands_creates p x).1, (alertCommands_creates p x).1,
    List.append_nil, List.append_nil]

theorem replaceLoop_timers : (replaceLoop p x).commands.filterMap SnifferCommand.timer =
    if p.timeGapInMillisecond = x.timeGapInMillisecond then [] else [p.timeGapInMillisecond] := by
  rw [replaceLoop_commands p x hpos, List.filterMap_append, List.filterMap_append,
    (loopCommands_creates p x).2.1, (timerCommands_creates p x).2.1,
    (alertCommands_creates p x).2.1, List.nil_append, List.append_nil]

theorem replaceLoop_trackers : (replaceLoop p x).commands.filterMap SnifferCommand.tracker =
    if p.alertGapInMillisecond = x.alertGapInMillisecond ∧ p.threshold = x.threshold then []
    else [p.alertSettings] := by
  rw [replaceLoop_commands p x hpos, List.filterMap_append, List.filterMap_append,
    (loopCommands_creates p x).2.2, (timerCommands_creates p x).2.2,
    (alertCommands_creates p x).2.2, List.nil_append, List.nil_append]

end Handling

end Sniffer

end HttpLogMonitor
