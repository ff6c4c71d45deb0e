import Mathlib.Algebra.Order.BigOperators.Group.List
import Mathlib.Algebra.Order.Group.Nat
import Mathlib.Algebra.Ring.Nat
import StorageFeatures.Proofs.Publisher.Turns
import StorageFeatures.Simulation.Sidecar

/-!
# A deadline for every call

A `TimedPlugin` takes its time over each call, or never answers. The time of every call is bounded,
and it counts from the beginning of that call, so four calls can take four times as long.
`Probe.AllOrNothing` says what a probe comes to. A plugin that answers all calls in time is recorded
as a whole; otherwise the probe ends with the first call that fails (`Csi.TimedPlugin.Fails`), and
no later call is made.

The clock of a publisher adds nothing to that: it moves on by the time that the calls take
(`Sidecar.await_eq_finish`).
-/

namespace StorageFeatures

open Csi

namespace Csi

theorem Method.mem_all (m : Method) : m ∈ all := by
  cases m <;> decide

/-- What comes of a call and after how many nanoseconds, if anything ever does. -/
structure TimedReply (m : Method) where
  latency : Option Nat
  result : Except Fault m.Answer

/-- A plugin that takes its time. -/
abbrev TimedPlugin := (m : Method) → TimedReply m

namespace TimedReply

variable {m : Method} {r : TimedReply m} {timeout : Nat}

/-- The reply comes before the deadline. -/
def InTime (r : TimedReply m) (timeout : Nat) : Prop :=
  ∃ time < timeout, r.latency = some time

/-- What the caller gets. A reply that comes at the deadline still counts. -/
def awaited (r : TimedReply m) (timeout : Nat) : Except Fault m.Answer :=
  match r.latency with
  | some time => if time ≤ timeout then r.result else .error (.rpcTimeout m.name timeout)
  | none => .error (.rpcTimeout m.name timeout)

/-- How long the caller waits. -/
def wait (r : TimedReply m) (timeout : Nat) : Nat :=
  match r.latency with
  | some time => min time timeout
  | none => timeout

theorem wait_le (r : TimedReply m) (timeout : Nat) : r.wait timeout ≤ timeout := by
  unfold wait
  split
  · exact Nat.min_le_right _ _
  · exact Nat.le_refl _

theorem awaited_of_inTime (h : r.InTime timeout) : r.awaited timeout = r.result := by
  obtain ⟨time, hlt, hlatency⟩ := h
  simp only [awaited, hlatency]
  exact if_pos (Nat.le_of_lt hlt)

/-- Any other reply is a timeout of its call. -/
theorem awaited_of_late (noTie : r.latency ≠ some timeout) (h : ¬ r.InTime timeout) :
    r.awaited timeout = .error (.rpcTimeout m.name timeout) := by
  unfold awaited
  split
  · rename_i time hlatency
    refine if_neg fun hle => ?_
    rcases Nat.lt_or_eq_of_le hle with hlt | rfl
    · exact h ⟨time, hlt, hlatency⟩
    · exact noTie hlatency
  · rfl

end TimedReply

namespace TimedPlugin

variable {plugin : TimedPlugin} {timeout : Nat}

/-- The plugin as it is seen by a caller who does not wait for longer. -/
def client (plugin : TimedPlugin) (timeout : Nat) : Client := fun m => (plugin m).awaited timeout

/-- How long some calls take. -/
def elapsed (plugin : TimedPlugin) (timeout : Nat) (calls : List Method) : Nat :=
  (calls.map fun m => (plugin m).wait timeout).sum

/-- Calls take no longer than their timeouts together. -/
theorem elapsed_le (plugin : TimedPlugin) (timeout : Nat) (calls : List Method) :
    plugin.elapsed timeout calls ≤ calls.length * timeout := by
  have hsum : plugin.elapsed timeout calls ≤
      (calls.map fun m => (plugin m).wait timeout).length • timeout := by
    refine List.sum_le_card_nsmul _ timeout fun time htime => ?_
    obtain ⟨m, -, rfl⟩ := List.mem_map.mp htime
    exact (plugin m).wait_le timeout
  rwa [List.length_map, Nat.nsmul_eq_mul] at hsum

/-- How a call can fail. -/
inductive Fails (plugin : TimedPlugin) (timeout : Nat) : Method → Fault → Prop where
  | refused {m : Method} {fault : Fault} (inTime : (plugin m).InTime timeout)
      (result : (plugin m).result = .error fault) : Fails plugin timeout m fault
  | late {m : Method} (late : ¬ (plugin m).InTime timeout) :
      Fails plugin timeout m (.rpcTimeout m.name timeout)
  | unnamed {identity : PluginIdentity} (inTime : (plugin .pluginInfo).InTime timeout)
      (result : (plugin .pluginInfo).result = .ok identity) (empty : identity.name = "") :
      Fails plugin timeout .pluginInfo
        (.invalidObject "GetPluginInfoResponse" "plugin reported an empty name")

/-- A call that does not fail. -/
def Passes (plugin : TimedPlugin) (timeout : Nat) (m : Method) : Prop :=
  ∀ fault, ¬ plugin.Fails timeout m fault

/-- The plugin answers all calls in time, and it has a name. -/
structure Answering (plugin : TimedPlugin) (timeout : Nat) (answers : Answers) : Prop where
  inTime : ∀ m, (plugin m).InTime timeout
  result : ∀ m, (plugin m).result = .ok (answers.get m)
  named : answers.identity.name ≠ ""

theorem Passes.inTime {m : Method} (h : plugin.Passes timeout m) : (plugin m).InTime timeout :=
  Classical.byContradiction fun hlate => h _ (.late hlate)

theorem Passes.result {m : Method} (h : plugin.Passes timeout m) :
    ∃ answer, (plugin m).result = .ok answer := by
  cases hresult : (plugin m).result with
  | error fault => exact absurd (.refused h.inTime hresult) (h fault)
  | ok answer => exact ⟨answer, rfl⟩

/-- If every call passes, the plugin answers. -/
theorem exists_answering (h : ∀ m, plugin.Passes timeout m) :
    ∃ answers, plugin.Answering timeout answers := by
  obtain ⟨identity, hidentity⟩ := (h .pluginInfo).result
  obtain ⟨entries, hentries⟩ := (h .pluginCapabilities).result
  obtain ⟨controller, hcontroller⟩ := (h .controllerCapabilities).result
  obtain ⟨node, hnode⟩ := (h .nodeCapabilities).result
  refine ⟨{ identity, plugin := entries, controller, node }, fun m => (h m).inTime, ?_, ?_⟩
  · rintro (_ | _ | _ | _)
    · exact hidentity
    · exact hentries
    · exact hcontroller
    · exact hnode
  · intro hempty
    exact h _ _ (.unnamed (h .pluginInfo).inTime hidentity hempty)

/-- All calls pass, or one of them is the first that fails. -/
theorem answering_or_fails (plugin : TimedPlugin) (timeout : Nat) :
    (∃ answers, plugin.Answering timeout answers) ∨
      ∃ before m after fault, Method.all = before ++ m :: after ∧
        (∀ m' ∈ before, plugin.Passes timeout m') ∧ plugin.Fails timeout m fault := by
  classical
  cases hfind : Method.all.find? fun m => ¬ plugin.Passes timeout m with
  | none =>
    refine .inl (exists_answering fun m => ?_)
    simpa using List.find?_eq_none.mp hfind m m.mem_all
  | some m =>
    obtain ⟨hfails, before, after, hsplit, hbefore⟩ := List.find?_eq_some_iff_append.mp hfind
    obtain ⟨fault, hfault⟩ : ∃ fault, plugin.Fails timeout m fault := by
      simpa [Passes] using hfails
    exact .inr ⟨before, m, after, fault, hsplit, by simpa using hbefore, hfault⟩

end TimedPlugin

end Csi

/-! ### Probing -/

namespace Probe

variable {plugin : TimedPlugin} {timeout : Nat} {fault : Fault}

/-- The calls that are left. -/
def ahead : Probe → List Method
  | pluginInfo => Method.all
  | pluginCapabilities _ => [.pluginCapabilities, .controllerCapabilities, .nodeCapabilities]
  | controllerCapabilities .. => [.controllerCapabilities, .nodeCapabilities]
  | nodeCapabilities .. => [.nodeCapabilities]

/-- The call that is made next is the first of those that are ahead. -/
theorem head?_ahead (p : Probe) : p.ahead.head? = some p.method := by
  cases p <;> rfl

/-- A call that leads to another one brings the probe one call nearer to its end. -/
theorem callsLeft_of_call {client : Client} {p q : Probe}
    (h : (client p.method).bind p.take = .ok (.call q)) : q.callsLeft + 1 = p.callsLeft := by
  cases hanswer : client p.method with
  | error fault => simp [hanswer, Except.bind] at h
  | ok answer =>
    rw [hanswer] at h
    exact callsLeft_of_take h

/-- A failed call ends the probe. -/
theorem bind_take_of_fails (noTie : ∀ m, (plugin m).latency ≠ some timeout) {p : Probe}
    (h : plugin.Fails timeout p.method fault) :
    (plugin.client timeout p.method).bind p.take = .error fault := by
  suffices key : ∀ m, plugin.Fails timeout m fault → p.method = m →
      (plugin.client timeout p.method).bind p.take = .error fault from key _ h rfl
  intro m h hm
  cases h with
  | refused inTime result =>
    subst hm
    rw [TimedPlugin.client, TimedReply.awaited_of_inTime inTime, result]
    rfl
  | late late =>
    subst hm
    rw [TimedPlugin.client, TimedReply.awaited_of_late (noTie _) late]
    rfl
  | @unnamed identity inTime result empty =>
    cases p with
    | pluginInfo =>
      have hclient : plugin.client timeout .pluginInfo = .ok identity :=
        (TimedReply.awaited_of_inTime inTime).trans result
      have htake : pluginInfo.take identity = .error
          (.invalidObject "GetPluginInfoResponse" "plugin reported an empty name") := by
        simp [take, empty]
      exact (congrArg (Except.bind · pluginInfo.take) hclient).trans htake
    | pluginCapabilities | controllerCapabilities | nodeCapabilities => cases hm

/-- After a call that does not fail there is another one, unless it was the last one. -/
theorem bind_take_of_passes {p : Probe} (h : plugin.Passes timeout p.method) :
    (∃ q, (plugin.client timeout p.method).bind p.take = .ok (.call q) ∧
      p.ahead = p.method :: q.ahead) ∨ p.ahead = [p.method] := by
  obtain ⟨answer, hanswer⟩ := h.result
  have hclient : plugin.client timeout p.method = .ok answer :=
    (TimedReply.awaited_of_inTime h.inTime).trans hanswer
  rw [hclient]
  cases p with
  | pluginInfo =>
    have hnamed : answer.name.isEmpty = false := by
      refine Bool.eq_false_iff.mpr fun hempty => ?_
      exact h _ (.unnamed h.inTime hanswer (String.isEmpty_iff.mp hempty))
    refine .inl ⟨.pluginCapabilities answer, ?_, rfl⟩
    simp only [Except.bind, take, hnamed, Bool.false_eq_true, if_false]
  | pluginCapabilities identity => exact .inl ⟨_, rfl, rfl⟩
  | controllerCapabilities identity entries => exact .inl ⟨_, rfl, rfl⟩
  | nodeCapabilities => exact .inr rfl

/-- The first call that fails is the last one. -/
theorem finish_of_fails (noTie : ∀ m, (plugin m).latency ≠ some timeout) {p : Probe}
    {before after : List Method} {m : Method} (split : p.ahead = before ++ m :: after)
    (passes : ∀ m' ∈ before, plugin.Passes timeout m') (fails : plugin.Fails timeout m fault) :
    finish (plugin.client timeout) p = (before ++ [m], .error fault) := by
  have hhead := p.head?_ahead
  rw [split] at hhead
  induction before generalizing p with
  | nil =>
    obtain rfl := Option.some.inj hhead
    exact finish_of_error (bind_take_of_fails noTie fails)
  | cons m' before ih =>
    obtain rfl := Option.some.inj hhead
    rcases bind_take_of_passes (passes _ List.mem_cons_self) with ⟨q, hcall, hahead⟩ | hlast
    · have hsplit : q.ahead = before ++ m :: after :=
        List.tail_eq_of_cons_eq (hahead.symm.trans split)
      have hfinish := ih hsplit (fun m' hm' => passes m' (List.mem_cons_of_mem _ hm'))
        (hsplit ▸ q.head?_ahead)
      rw [finish_of_call hcall, hfinish]
      rfl
    · simp [hlast] at split

/-- A plugin that answers all calls is recorded as a whole. -/
theorem run_of_answering {answers : Answers} (h : plugin.Answering timeout answers) :
    run (plugin.client timeout) = (Method.all, .ok (.ofAnswers answers)) := by
  have hclient : plugin.client timeout = fun m => .ok (answers.get m) :=
    funext fun m => (TimedReply.awaited_of_inTime (h.inTime m)).trans (h.result m)
  have hnamed : answers.identity.name.isEmpty = false :=
    Bool.eq_false_iff.mpr fun hempty => h.named (String.isEmpty_iff.mp hempty)
  rw [hclient]
  exact run_eq_of_answers hnamed

end Probe

/-! ### On a clock -/

namespace ScriptedPlugin

/-- A script as a plugin that takes its time. Scripts count in milliseconds. -/
def timed (p : ScriptedPlugin) : TimedPlugin := fun m =>
  { latency := if (p.scripts m).hangs then none else some ((p.scripts m).delay * 1000000)
    result :=
      match (p.scripts m).fault with
      | some fault => .error fault
      | none => .ok (p.answers.get m) }

theorem wait_timed (p : ScriptedPlugin) (m : Method) (timeout : Nat) :
    (p.timed m).wait (timeout * 1000000) = ((p.scripts m).ends timeout).1 * 1000000 := by
  unfold TimedReply.wait timed CallScript.ends
  cases (p.scripts m).hangs with
  | true => rfl
  | false =>
    simp only [Bool.false_eq_true, if_false, Bool.false_or, decide_eq_true_eq]
    split <;> omega

/-- The scripted plugin and the timed one answer the same, or both time out. -/
theorem awaited_timed (p : ScriptedPlugin) (m : Method) (timeout : Nat) :
    (p.timed m).awaited (timeout * 1000000) =
      if ((p.scripts m).ends timeout).2 then (p.timed m).result
      else .error (.rpcTimeout m.name (timeout * 1000000)) := by
  unfold TimedReply.awaited timed CallScript.ends
  cases (p.scripts m).hangs with
  | true => rfl
  | false =>
    simp only [Bool.false_eq_true, if_false, Bool.false_or, decide_eq_true_eq]
    by_cases hlate : timeout < (p.scripts m).delay
    · rw [if_pos hlate, if_neg (by omega)]
      rfl
    · rw [if_neg hlate, if_pos (by omega)]
      rfl

end ScriptedPlugin

namespace Sidecar

variable {s : Sidecar}

/-- The plugin as the publisher sees it. -/
def client (s : Sidecar) : Client := s.plugin.timed.client (s.timeout * 1000000)

/-- A call comes to what its script says. -/
theorem result_call (s : Sidecar) (p : Probe) :
    (s.call p).2.result s.timeout s.plugin.answers = (s.client p.method).bind p.take := by
  rw [client, TimedPlugin.client, ScriptedPlugin.awaited_timed]
  show (if ((s.plugin.scripts p.method).ends s.timeout).2 then _ else _) = _
  split
  · unfold ScriptedPlugin.timed
    dsimp only [call]
    cases (s.plugin.scripts p.method).fault <;> rfl
  · rfl

/-- Nothing else happens while a call is awaited. -/
theorem awaited_of_quiet (quiet : s.nextTime? = none) {due : Nat} (h : s.now ≤ due) :
    (if due ≤ s.now then s else s.advanceTo due) = { s with now := due } := by
  split
  · rename_i hle
    obtain rfl := Nat.le_antisymm h hle
    rfl
  · have hquiet : Clocked.nextTime? s = none := quiet
    simp only [advanceTo, Clocked.advanceTo, Clocked.runUntil, hquiet]
    rfl

/-- The publisher when a call is over. -/
def afterCall (s : Sidecar) (p : Probe) : Sidecar :=
  { s with received := s.received ++ [p.method]
           now := s.now + ((s.plugin.scripts p.method).ends s.timeout).1 }

/-- A call that is awaited. -/
theorem await_call (quiet : s.nextTime? = none) (calls : Nat) (p : Probe) :
    await (calls + 1) (s.call p).1 (s.call p).2 =
      match (s.client p.method).bind p.take with
      | .error fault => (s.afterCall p, .error fault)
      | .ok (.done c) => (s.afterCall p, .ok c)
      | .ok (.call q) => await calls ((s.afterCall p).call q).1 ((s.afterCall p).call q).2 := by
  have hwait : (if (s.call p).2.due ≤ (s.call p).1.now then (s.call p).1
      else (s.call p).1.advanceTo (s.call p).2.due) = s.afterCall p :=
    awaited_of_quiet (s := (s.call p).1) quiet (Nat.le_add_right s.now _)
  have hresult : (s.call p).2.result (s.afterCall p).timeout (s.afterCall p).plugin.answers =
      (s.client p.method).bind p.take :=
    s.result_call p
  simp only [await, hwait, resolve, hresult]
  cases (s.client p.method).bind p.take with
  | error fault => rfl
  | ok next => cases next <;> rfl

/-- A probe whose calls are awaited one after the other. -/
theorem await_eq_finish (quiet : s.nextTime? = none) {calls : Nat} {p : Probe}
    (h : p.callsLeft ≤ calls) :
    ∃ time, time * 1000000 =
        s.plugin.timed.elapsed (s.timeout * 1000000) (p.finish s.client).1 ∧
      await calls (s.call p).1 (s.call p).2 =
        ({ s with received := s.received ++ (p.finish s.client).1
                  now := s.now + time }, (p.finish s.client).2) := by
  induction calls generalizing s p with
  | zero => cases p <;> cases h
  | succ calls ih =>
    have hone := s.plugin.wait_timed p.method s.timeout
    rw [await_call quiet]
    cases hcall : (s.client p.method).bind p.take with
    | error fault =>
      rw [Probe.finish_of_error hcall]
      exact ⟨_, hone.symm, rfl⟩
    | ok next =>
      cases next with
      | done c =>
        rw [Probe.finish_of_done hcall]
        exact ⟨_, hone.symm, rfl⟩
      | call q =>
        -- every further call leaves one less to make, so the fuel lasts
        have hleft := Probe.callsLeft_of_call hcall
        obtain ⟨time, htime, hawait⟩ := ih (s := s.afterCall p) (p := q) quiet (by omega)
        rw [Probe.finish_of_call hcall]
        refine ⟨((s.plugin.scripts p.method).ends s.timeout).1 + time, ?_, ?_⟩
        · rw [Nat.add_mul, htime, ← hone]
          rfl
        · refine hawait.trans ?_
          simp only [afterCall, List.append_assoc, Nat.add_assoc]
          rfl

end Sidecar

namespace Probe

variable {plugin : TimedPlugin} {timeout : Nat}

/-! ### All or nothing -/

/-- The first call that fails ends the probe, and no later one is made. -/
theorem run_of_fails (noTie : ∀ m, (plugin m).latency ≠ some timeout) {fault : Fault}
    {before after : List Method} {m : Method} (split : Method.all = before ++ m :: after)
    (passes : ∀ m' ∈ before, plugin.Passes timeout m') (fails : plugin.Fails timeout m fault) :
    run (plugin.client timeout) = (before ++ [m], .error fault) :=
  finish_of_fails (p := pluginInfo) noTie split passes fails

/-- How a probe can go. -/
theorem run_cases (noTie : ∀ m, (plugin m).latency ≠ some timeout) :
    (∃ answers, plugin.Answering timeout answers ∧
      run (plugin.client timeout) = (Method.all, .ok (.ofAnswers answers))) ∨
    ∃ before m after fault, Method.all = before ++ m :: after ∧
      (∀ m' ∈ before, plugin.Passes timeout m') ∧ plugin.Fails timeout m fault ∧
      run (plugin.client timeout) = (before ++ [m], .error fault) := by
  rcases plugin.answering_or_fails timeout with
    ⟨answers, hanswering⟩ | ⟨before, m, after, fault, hsplit, hpasses, hfails⟩
  · exact .inl ⟨answers, hanswering, run_of_answering hanswering⟩
  · exact .inr ⟨before, m, after, fault, hsplit, hpasses, hfails,
      run_of_fails noTie hsplit hpasses hfails⟩

/-- What a probe comes to whose calls all have the same deadline. -/
structure AllOrNothing (plugin : TimedPlugin) (timeout : Nat) : Prop where
  /-- The record is made of all four answers. -/
  succeeds_iff : ∀ calls c, run (plugin.client timeout) = (calls, .ok c) ↔
    calls = Method.all ∧ ∃ answers, plugin.Answering timeout answers ∧
      c = { metadata := { name := some answers.identity.name }
            spec :=
              { plugin := ⟨answers.identity.name, answers.identity.vendorVersion⟩
                features := featureSet answers.plugin answers.controller answers.node } }
  /-- The fault is that of the first call that fails, and no later call is made. -/
  fails_iff : ∀ calls fault, run (plugin.client timeout) = (calls, .error fault) ↔
    ∃ before m after, Method.all = before ++ m :: after ∧
      (∀ m' ∈ before, plugin.Passes timeout m') ∧ plugin.Fails timeout m fault ∧
      calls = before ++ [m]
  elapsed_le : plugin.elapsed timeout (run (plugin.client timeout)).1 ≤ 4 * timeout
  /-- So it is on the clock of a publisher whose loop does not run. -/
  on_clock : ∀ s : Sidecar, s.nextTime? = none → s.timeout * 1000000 = timeout →
    s.plugin.timed = plugin →
    ∃ time, time * 1000000 = plugin.elapsed timeout (run (plugin.client timeout)).1 ∧
      s.probe = ({ s with received := s.received ++ (run (plugin.client timeout)).1
                          now := s.now + time }, (run (plugin.client timeout)).2)

/-- **A probe is all or nothing**, and every call has its own deadline. The record is made of four
answers in time, or the first call that fails ends the probe with its fault, after four timeouts at
most. -/
theorem allOrNothing_of_deadlines (noTie : ∀ m, (plugin m).latency ≠ some timeout) :
    AllOrNothing plugin timeout where
  succeeds_iff calls c := by
    constructor
    · intro h
      rcases run_cases noTie with ⟨answers, hanswering, hrun⟩ | ⟨_, _, _, _, -, -, -, hrun⟩
      · cases hrun.symm.trans h
        exact ⟨rfl, answers, hanswering, rfl⟩
      · cases hrun.symm.trans h
    · rintro ⟨rfl, answers, hanswering, rfl⟩
      exact run_of_answering hanswering
  fails_iff calls fault := by
    constructor
    · intro h
      rcases run_cases noTie with
        ⟨_, -, hrun⟩ | ⟨before, m, after, fault', hsplit, hpasses, hfails, hrun⟩
      · cases hrun.symm.trans h
      · cases hrun.symm.trans h
        exact ⟨before, m, after, hsplit, hpasses, hfails, rfl⟩
    · rintro ⟨before, m, after, hsplit, hpasses, hfails, rfl⟩
      exact run_of_fails noTie hsplit hpasses hfails
  elapsed_le := by
    have hcalls : (run (plugin.client timeout)).1.length ≤ 4 := by
      rcases run_cases noTie with ⟨_, -, hrun⟩ | ⟨before, m, after, _, hsplit, -, -, hrun⟩
      · rw [hrun]
        exact Nat.le_refl 4
      · have hlength := congrArg List.length hsplit
        simp only [Method.all, List.length_append, List.length_cons, List.length_nil] at hlength
        simp only [hrun, List.length_append, List.length_cons, List.length_nil]
        omega
    exact (plugin.elapsed_le timeout _).trans (Nat.mul_le_mul_right timeout hcalls)
  on_clock s quiet htimeout hplugin := by
    subst htimeout hplugin
    exact s.await_eq_finish quiet (p := pluginInfo) (Nat.le_refl 4)

/-- The third call has its full time, although the first two have already taken longer than that. -/
theorem allOrNothing_hanging :
    let plugin : TimedPlugin := fun
      | .pluginInfo => ⟨some 4, .ok { name := "disk" }⟩
      | .pluginCapabilities => ⟨some 3, .ok []⟩
      | .controllerCapabilities => ⟨none, .ok []⟩
      | .nodeCapabilities => ⟨some 1, .error (.internal "lost")⟩
    let calls : List Method := [.pluginInfo, .pluginCapabilities, .controllerCapabilities]
    (∀ m, (plugin m).latency ≠ some 5) ∧ AllOrNothing plugin 5 ∧
      run (plugin.client 5) = (calls, .error (.rpcTimeout "ControllerGetCapabilities" 5)) ∧
      plugin.elapsed 5 calls = 12 := by
  intro plugin calls
  have noTie (m : Method) : (plugin m).latency ≠ some 5 := by
    cases m <;> decide
  have hinfo : (plugin.client 5 .pluginInfo).bind pluginInfo.take =
      .ok (.call (.pluginCapabilities { name := "disk" })) := rfl
  have hcall : run (plugin.client 5) = _ := finish_of_call hinfo
  refine ⟨noTie, allOrNothing_of_deadlines noTie, ?_, rfl⟩
  rw [hcall, finish_of_call rfl, finish_of_error rfl]
  rfl

end Probe

end StorageFeatures
