import Mathlib.Data.List.Induction
import StorageFeatures.Proofs.Store.Calls

/-!
# Failures and revisions of the store in the caches

A store in the caches is called again and again, on both of its kinds, and is told at any time to
fail the next write. `MemoryStore.Atomic` says what can be relied on after any such history:

* a write that fails changes no cache and takes no number; it fails because of the fault that was
  laid out for it, or because of what stands in the caches, and for no other reason;
* a write that succeeds changes one name of one kind, where then stands what was answered;
* the revisions of both kinds together are 1, 2, 3 and so on, no identity is assigned twice, and
  every write is logged.

That no identity is assigned twice rests on its last part, a number without the separator before it
(`number_of_identity`); the name before it may be anything.
-/

namespace StorageFeatures.MemoryStore

/-! ### Histories -/

/-- What happens to a store. -/
inductive Act where
  | call (call : StoreCall)
  /-- The next write is to fail. -/
  | failNext (fault : Fault)

/-- Whether an act is a look-up. -/
def Act.isRead : Act → Bool
  | call c => !c.isWrite
  | failNext _ => false

/-- The store and its caches after an act. -/
def act (s : MemoryStore × Caches) : Act → MemoryStore × Caches
  | .call c => ((s.1.run s.2 c).1, (s.1.run s.2 c).2.1)
  | .failNext fault => ({ s.1 with failNext := some fault }, s.2)

/-- A call that was made and its answer. -/
structure Entry where
  call : StoreCall
  answer : Except Fault StoreAnswer

namespace Entry

/-- The metadata of the object that was answered. -/
def metadata? (e : Entry) : Option Metadata := e.answer.toOption.bind StoreAnswer.metadata?

/-- The revision of the object that was answered. -/
def version? (e : Entry) : Option String := e.metadata?.bind Metadata.resourceVersion

/-- The identity of the object that was answered. -/
def identity? (e : Entry) : Option String := e.metadata?.bind Metadata.uid

/-- Whether an object was created. -/
def created (e : Entry) : Bool := e.answer.isOk && e.call.isCreate

/-- Whether an object was created or replaced. -/
def numbered (e : Entry) : Bool := e.answer.isOk && e.call.isPut

end Entry

/-- The call of an act with its answer. -/
def answered? (s : MemoryStore × Caches) : Act → Option Entry
  | .call c => some ⟨c, (s.1.run s.2 c).2.2⟩
  | .failNext _ => none

/-- The calls of some acts with their answers, in order. -/
def entries : MemoryStore × Caches → List Act → List Entry
  | _, [] => []
  | s, a :: l => (answered? s a).toList ++ entries (act s a) l

section History

variable (caches : Caches) (past : List Act)

/-- A new store on some caches after some acts. -/
def after : MemoryStore × Caches := past.foldl act ({}, caches)

/-- What a call comes to after some acts. -/
def next (call : StoreCall) : MemoryStore × Caches × Except Fault StoreAnswer :=
  (after caches past).1.run (after caches past).2 call

/-- A fault was laid out, and no write has met it yet. -/
def Armed (fault : Fault) : Prop :=
  ∃ earlier reads, past = earlier ++ .failNext fault :: reads ∧ ∀ a ∈ reads, a.isRead = true

/-- What can be relied on after some acts. -/
structure Atomic : Prop where
  /-- A call that fails changes no cache and takes no number. -/
  failed : ∀ call fault, (next caches past call).2.2 = .error fault →
    (next caches past call).2.1 = (after caches past).2 ∧
      (next caches past call).1.revision = (after caches past).1.revision
  /-- The next write meets the fault that was laid out. -/
  faulted : ∀ call fault, call.isWrite = true → Armed past fault →
    (next caches past call).2.2 = .error fault
  /-- If none was laid out since the last write, then a write fails only for what stands in the
  caches, and a look-up never fails. -/
  unfaulted : ∀ call, (call.isWrite = true → ∀ fault, ¬ Armed past fault) → ∀ fault,
    (next caches past call).2.2 = .error fault ↔ (after caches past).2.refusal? call = some fault
  /-- A write that succeeds changes one name of one kind, where then stands what was answered. -/
  succeeded : ∀ call a, call.isWrite = true → (next caches past call).2.2 = .ok a →
    (after caches past).2.OnlyAt call.kind call.name (next caches past call).2.1 ∧
      (next caches past call).2.1.find call.kind call.name = a
  /-- A look-up changes nothing and answers what stands there. -/
  read : ∀ call, call.isWrite = false → next caches past call =
    ((after caches past).1, (after caches past).2,
      .ok ((after caches past).2.find call.kind call.name))
  /-- A creation gives the object an identity and a revision. -/
  created : ∀ call a, call.isCreate = true → (next caches past call).2.2 = .ok a →
    ∃ uid version, a = call.object.mapMetadata fun m =>
      { m with uid := some uid, resourceVersion := some version }
  /-- A replacement gives it a revision and keeps all else. -/
  updated : ∀ call a, call.isUpdate = true → (next caches past call).2.2 = .ok a →
    ∃ version, a = call.object.mapMetadata fun m => { m with resourceVersion := some version }
  /-- The revisions of both kinds are numbered without gap or repetition. -/
  versions : ((entries ({}, caches) past).filter Entry.numbered).map Entry.version? =
    (List.range' 1 (after caches past).1.revision).map fun i => some (toString i)
  /-- No identity is assigned twice. -/
  identities : (((entries ({}, caches) past).filter Entry.created).map Entry.identity?).Nodup ∧
    none ∉ ((entries ({}, caches) past).filter Entry.created).map Entry.identity?
  /-- All writes are logged in order, the failed ones included. -/
  logged : (after caches past).1.calls =
    (entries ({}, caches) past).filterMap fun e => e.call.written?

end History

/-- Every history grows by faults that are laid out and by calls. -/
@[elab_as_elim]
theorem history {motive : List Act → Prop} (new : motive [])
    (failNext : ∀ past fault, motive past → motive (past ++ [.failNext fault]))
    (call : ∀ past c, motive past → motive (past ++ [.call c])) (past : List Act) :
    motive past := by
  induction past using List.reverseRecOn with
  | nil => exact new
  | append_singleton past a ih =>
    cases a with
    | failNext fault => exact failNext past fault ih
    | call c => exact call past c ih

section Concat

variable {caches : Caches} (past : List Act)

theorem after_concat_failNext (fault : Fault) : after caches (past ++ [.failNext fault]) =
    ({ (after caches past).1 with failNext := some fault }, (after caches past).2) := by
  rw [after, List.foldl_append]
  rfl

theorem after_concat_call (c : StoreCall) : after caches (past ++ [.call c]) =
    ((next caches past c).1, (next caches past c).2.1) := by
  rw [after, List.foldl_append]
  rfl

theorem entries_append (s : MemoryStore × Caches) (l l' : List Act) :
    entries s (l ++ l') = entries s l ++ entries (l.foldl act s) l' := by
  induction l generalizing s with
  | nil => rfl
  | cons a l ih => rw [List.cons_append, entries, entries, ih, List.append_assoc, List.foldl_cons]

theorem entries_concat_failNext (fault : Fault) :
    entries ({}, caches) (past ++ [.failNext fault]) = entries ({}, caches) past :=
  (entries_append _ past _).trans (List.append_nil _)

theorem entries_concat_call (c : StoreCall) : entries ({}, caches) (past ++ [.call c]) =
    entries ({}, caches) past ++ [⟨c, (next caches past c).2.2⟩] :=
  entries_append _ past _

end Concat

/-! ### Faults -/

/-- A fault is to be met if it was just laid out, or was to be met before a look-up. -/
theorem armed_concat_iff {past : List Act} {a : Act} {fault : Fault} :
    Armed (past ++ [a]) fault ↔ a = .failNext fault ∨ a.isRead = true ∧ Armed past fault := by
  constructor
  · rintro ⟨earlier, reads, h, hreads⟩
    rcases List.eq_nil_or_concat reads with rfl | ⟨reads, b, rfl⟩
    · exact .inl (List.cons.inj (List.append_inj' h rfl).2).1
    · rw [List.concat_eq_append, ← List.cons_append, ← List.append_assoc] at h
      obtain ⟨rfl, hab⟩ := List.append_inj' h rfl
      obtain rfl := (List.cons.inj hab).1
      exact .inr ⟨hreads a (by simp), earlier, reads, rfl, fun b hb => hreads b (by simp [hb])⟩
  · rintro (rfl | ⟨hread, earlier, reads, rfl, hreads⟩)
    · exact ⟨past, [], rfl, fun _ hb => absurd hb List.not_mem_nil⟩
    · refine ⟨earlier, reads ++ [a], by simp, fun b hb => ?_⟩
      rcases List.mem_append.mp hb with hb | hb
      · exact hreads b hb
      · exact List.mem_singleton.mp hb ▸ hread

section Numbers

variable {caches : Caches} {past : List Act}

/-- The fault that the store has in hand is the one that is to be met. -/
theorem failNext_after_iff {fault : Fault} :
    (after caches past).1.failNext = some fault ↔ Armed past fault := by
  induction past using history with
  | new =>
    refine ⟨nofun, ?_⟩
    rintro ⟨earlier, reads, h, -⟩
    cases earlier <;> cases h
  | failNext past fault' => simp [after_concat_failNext, armed_concat_iff, Act.isRead, eq_comm]
  | call past c ih =>
    have hgoes : (next caches past c).1.failNext = _ := (goes _ _ c).failNext
    rw [after_concat_call, armed_concat_iff, ← ih, hgoes]
    cases hwrite : c.isWrite <;> simp [Act.isRead, hwrite]

/-! ### Numbers -/

/-- A creation or a replacement that succeeds stores its object at the next revision. -/
theorem stored_of_next {call : StoreCall} {a : StoreAnswer} (put : call.isPut = true)
    (ok : (next caches past call).2.2 = .ok a) :
    a = call.stored ((after caches past).1.revision + 1) ∧
      (next caches past call).1.revision = (after caches past).1.revision + 1 := by
  have hstored := ((goes _ _ call).performs_of_ok ok).stored_of_put put ok
  rwa [revision_recorded] at hstored

/-- A call takes the next number or none. -/
theorem revision_next (call : StoreCall) : (next caches past call).1.revision =
    (after caches past).1.revision +
      if (Entry.mk call (next caches past call).2.2).numbered then 1 else 0 := by
  have hgoes := goes (after caches past).1 (after caches past).2 call
  cases hanswer : (next caches past call).2.2 with
  | error fault => exact (hgoes.unchanged hanswer).2
  | ok a =>
    cases hput : call.isPut with
    | true =>
      have hnumbered : (Entry.mk call (.ok a)).numbered = true := hput
      rw [(stored_of_next hput hanswer).2, if_pos hnumbered]
    | false =>
      have hrevision := (hgoes.performs_of_ok hanswer).revision_eq hput
      rw [if_neg (by simp [Entry.numbered, hput]), Nat.add_zero]
      exact hrevision.trans (revision_recorded _ call)

/-- What an object that was stored at a number says of it. -/
theorem version?_stored {call : StoreCall} (put : call.isPut = true) (number : Nat) :
    (Entry.mk call (.ok (call.stored number))).version? = some (toString number) := by
  obtain ⟨m, hm⟩ := StoreCall.exists_metadata_of_isPut put
  simp [Entry.version?, Entry.metadata?, Except.toOption, StoreCall.stored,
    StoreAnswer.metadata?_mapMetadata, hm]

theorem identity?_stored {call : StoreCall} (create : call.isCreate = true) (number : Nat) :
    (Entry.mk call (.ok (call.stored number))).identity? =
      some (call.name ++ "-" ++ toString number) := by
  obtain ⟨m, hm⟩ := StoreCall.exists_metadata_of_isPut (StoreCall.isPut_of_isCreate create)
  simp [Entry.identity?, Entry.metadata?, Except.toOption, StoreCall.stored,
    StoreAnswer.metadata?_mapMetadata, hm, create]

/-- An entry with a number is that of a call that put an object, at the next revision. -/
theorem next_of_numbered {call : StoreCall}
    (h : (Entry.mk call (next caches past call).2.2).numbered = true) : call.isPut = true ∧
      (next caches past call).2.2 = .ok (call.stored ((after caches past).1.revision + 1)) := by
  obtain ⟨hok, hput⟩ := Bool.and_eq_true_iff.mp h
  refine ⟨hput, ?_⟩
  cases hanswer : (next caches past call).2.2 with
  | error fault =>
    rw [hanswer] at hok
    cases hok
  | ok a => rw [(stored_of_next hput hanswer).1]

/-- The revisions of the objects that were stored are all the numbers up to that of the store. -/
theorem versions_entries : ((entries ({}, caches) past).filter Entry.numbered).map Entry.version? =
    (List.range' 1 (after caches past).1.revision).map fun i => some (toString i) := by
  induction past using history with
  | new => rfl
  | failNext past fault ih =>
    rw [entries_concat_failNext, after_concat_failNext]
    exact ih
  | call past c ih =>
    rw [entries_concat_call, after_concat_call, List.filter_append, List.map_append, ih,
      revision_next]
    cases hnumbered : (Entry.mk c (next caches past c).2.2).numbered with
    | false => simp [hnumbered]
    | true =>
      obtain ⟨put, hanswer⟩ := next_of_numbered hnumbered
      rw [hanswer] at hnumbered ⊢
      rw [if_pos rfl, List.range'_1_concat, List.map_append, List.filter_singleton, hnumbered,
        Nat.add_comm 1]
      exact congrArg _ (congrArg (fun v => [v]) (version?_stored put _))

/-- The number at the end of an identity can be read off from it, whatever the name before it is. -/
theorem number_of_identity {n n' : String} {i j : Nat}
    (h : n ++ "-" ++ toString i = n' ++ "-" ++ toString j) : i = j := by
  have digits (i : Nat) : (toString i).toList = Nat.toDigits 10 i := by
    rw [Nat.toString_eq_repr, Nat.toList_repr]
  -- from the end up to the separator there are the digits of the number
  have last (n : String) (i : Nat) :
      (n ++ "-" ++ toString i).toList.reverse.takeWhile (· ≠ '-') =
        (Nat.toDigits 10 i).reverse := by
    have hdigits : ∀ c ∈ (Nat.toDigits 10 i).reverse, c ≠ '-' := by
      rintro _ hc rfl
      have hdigit := Nat.isDigit_of_mem_toDigits (by decide) (by decide) (List.mem_reverse.mp hc)
      exact absurd hdigit (by decide)
    rw [String.toList_append, String.toList_append, digits, List.reverse_append,
      List.reverse_append, List.takeWhile_append_of_pos (by simpa using hdigits)]
    exact List.append_nil _
  have hlast := last n i
  rw [h, last n' j, List.reverse_inj] at hlast
  have hvalue := congrArg (fun ds => Nat.ofDigitChars 10 ds 0) hlast
  simpa using hvalue.symm

/-- Whatever was created was numbered. -/
theorem numbered_of_created {e : Entry} (h : e.created = true) : e.numbered = true := by
  obtain ⟨hok, create⟩ := Bool.and_eq_true_iff.mp h
  simp [Entry.numbered, StoreCall.isPut, hok, create]

/-- What was created has an identity made of its name and the revision. -/
theorem identity?_of_created {call : StoreCall}
    (h : (Entry.mk call (next caches past call).2.2).created = true) :
    (Entry.mk call (next caches past call).2.2).identity? =
      some (call.name ++ "-" ++ toString ((after caches past).1.revision + 1)) := by
  rw [(next_of_numbered (numbered_of_created h)).2]
  exact identity?_stored (Bool.and_eq_true_iff.mp h).2 _

/-- Every identity that was assigned ends in a number that was taken before. -/
theorem identity_of_created {e : Entry} (h : e ∈ entries ({}, caches) past)
    (created : e.created = true) :
    ∃ n i, e.identity? = some (n ++ "-" ++ toString i) ∧ i ≤ (after caches past).1.revision := by
  induction past using history with
  | new => cases h
  | failNext past fault ih =>
    rw [entries_concat_failNext] at h
    rw [after_concat_failNext]
    exact ih h
  | call past c ih =>
    rw [entries_concat_call] at h
    rw [after_concat_call, revision_next]
    rcases List.mem_append.mp h with h | h
    · obtain ⟨n, i, hidentity, hi⟩ := ih h
      exact ⟨n, i, hidentity, Nat.le_add_right_of_le hi⟩
    · obtain rfl := List.mem_singleton.mp h
      rw [if_pos (numbered_of_created created)]
      exact ⟨_, _, identity?_of_created created, Nat.le_refl _⟩

/-- No two objects that were ever created have the same identity. -/
theorem nodup_identities :
    (((entries ({}, caches) past).filter Entry.created).map Entry.identity?).Nodup := by
  induction past using history with
  | new => exact .nil
  | failNext past fault ih =>
    rw [entries_concat_failNext]
    exact ih
  | call past c ih =>
    rw [entries_concat_call, List.filter_append, List.map_append, List.filter_singleton]
    cases hcreated : (Entry.mk c (next caches past c).2.2).created with
    | false => simpa using ih
    | true =>
      refine List.nodup_append.mpr ⟨ih, List.nodup_singleton _, ?_⟩
      -- the new identity ends in a number that is greater than those of the others
      rintro _ hold _ hnew rfl
      obtain ⟨e, he, hidentity⟩ := List.mem_map.mp hold
      obtain ⟨hmem, created⟩ := List.mem_filter.mp he
      obtain ⟨n, i, hi, hle⟩ := identity_of_created hmem created
      have hnew := (List.mem_singleton.mp hnew).trans (identity?_of_created hcreated)
      have hsame := (hi.symm.trans hidentity).trans hnew
      have hnumber := number_of_identity (Option.some.inj hsame)
      omega

theorem none_notMem_identities :
    none ∉ ((entries ({}, caches) past).filter Entry.created).map Entry.identity? := by
  intro h
  obtain ⟨e, he, hnone⟩ := List.mem_map.mp h
  obtain ⟨hmem, created⟩ := List.mem_filter.mp he
  obtain ⟨n, i, hi, -⟩ := identity_of_created hmem created
  cases hnone.symm.trans hi

/-- The writes that are logged are those that were called, in order. -/
theorem calls_after : (after caches past).1.calls =
    (entries ({}, caches) past).filterMap fun e => e.call.written? := by
  induction past using history with
  | new => rfl
  | failNext past fault ih =>
    rw [entries_concat_failNext, after_concat_failNext]
    exact ih
  | call past c ih =>
    have hcalls : (next caches past c).1.calls = _ := (goes _ _ c).calls
    rw [entries_concat_call, after_concat_call, List.filterMap_append, ← ih, hcalls]
    cases hwritten : c.written? <;> simp [hwritten]

end Numbers

/-- **What the store in the caches can be relied on for.** Whatever was called and whichever faults
were laid out, failed writes leave no trace but in the log, and the others are numbered. -/
theorem atomic_of_acts (caches : Caches) (past : List Act) : Atomic caches past where
  failed call fault failed := (goes _ _ call).unchanged failed
  faulted call fault write armed :=
    (goes _ _ call).eq_of_armed write (failNext_after_iff.mpr armed)
  unfaulted call unarmed fault := by
    refine (goes _ _ call).error_iff_of_unarmed fun write => ?_
    rw [Option.eq_none_iff_forall_ne_some]
    exact fun fault' armed => unarmed write fault' (failNext_after_iff.mp armed)
  succeeded call a write ok := ((goes _ _ call).performs_of_ok ok).onlyAt write ok
  read call look := (goes _ _ call).eq_of_read look
  created call a create ok := by
    have hstored := (stored_of_next (StoreCall.isPut_of_isCreate create) ok).1
    simp only [StoreCall.stored, create, if_true] at hstored
    exact ⟨_, _, hstored⟩
  updated call a update ok := by
    have hstored := (stored_of_next (StoreCall.isPut_of_isUpdate update) ok).1
    simp only [StoreCall.stored, StoreCall.isCreate_of_isUpdate update] at hstored
    exact ⟨_, hstored⟩
  versions := versions_entries
  identities := ⟨nodup_identities, none_notMem_identities⟩
  logged := calls_after

/-- A name that was deleted and created again gets another identity. -/
example :
    let disk : ProvisionerCapability := ⟨{ name := some "disk" }, ⟨⟨"disk", "1"⟩, {}⟩⟩
    let fast : ClassCapability := ⟨{ name := some "fast-1" }, ⟨"disk", {}⟩⟩
    let past : List Act :=
      [.call (.createCapability fast), .call (.createCapability fast),
       .call (.deleteCapability "fast-1"), .call (.createProvisioner disk),
       .failNext (.internal "full"), .call (.createCapability fast), .call (.createCapability fast)]
    ((entries ({}, {}) past).filter Entry.created).map Entry.identity? =
      [some "fast-1-1", some "disk-2", some "fast-1-3"] := by
  decide +kernel

end StorageFeatures.MemoryStore
