import Chargeback.Proofs.Group.Repeats
import Chargeback.Proofs.Pipeline.History

/-!
# Programs that only look

Some programs on groups write nothing: those that fetch a group or list the groups, and
those that would change a record into what it is already. Whether calls fail meanwhile does
not matter. Nor do such programs try to write: they neither create a record nor replace one.

## Main definitions

* `Pipeline.Looked`: nothing has been written from one pipeline to another.
* `Pipeline.get_looked`, `Pipeline.selectorGroups_looked`: what the reads give.
* `Pipeline.change_looked`: a change that leaves its record as it is.
* `Pipeline.join_looked`, `Pipeline.leave_looked`: all groups are as they should be.
-/

namespace Chargeback

/-- The call is one that writes. -/
def StoreCall.writes : StoreCall → Bool
  | create | replace => true
  | get | list | subscribers => false

namespace Pipeline

variable {p p' p'' : Pipeline} {retry : RetryPolicy} {name : String} {createAs : Option GroupType}
  {change : GroupSpec → GroupSpec}

theorem onGroups_bind {α β : Type} (p : Pipeline) (program : GroupProgram α)
    (next : α → GroupProgram β) :
    p.onGroups (program.bind next) = (p.onGroups program).2.onGroups (next (p.onGroups program).1) :=
  Program.run_bind _ program next p

/-- The clock shows the time of the pipeline. -/
theorem onGroups_clock {α : Type} (p : Pipeline) (next : Instant → GroupProgram α) :
    p.onGroups (Aggregator.clock.bind next) = p.onGroups (next p.now) := rfl

/-- Nothing has been written from one pipeline to the other, and no call that writes has been
made. If nothing disturbed the store, nothing does. -/
structure Looked (p p' : Pipeline) : Prop where
  orderly : Orderly p'
  now_eq : p'.now = p.now
  records : p.store.memory.SameRecords p'.store.memory
  calls : ∀ call : StoreCall, call.writes →
    p'.store.calls.get? call.name = p.store.calls.get? call.name
  calm : p.store.Calm → p'.store.Calm

theorem Looked.refl (h : Orderly p) : Looked p p :=
  ⟨h, rfl, .refl _, fun _ _ => rfl, id⟩

theorem Looked.trans (h : Looked p p') (h' : Looked p' p'') : Looked p p'' where
  orderly := h'.orderly
  now_eq := h'.now_eq.trans h.now_eq
  records :=
    ⟨h'.records.groups_eq.trans h.records.groups_eq, h'.records.version_eq.trans h.records.version_eq,
      h'.records.writes_eq.trans h.records.writes_eq⟩
  calls call hcall := (h'.calls call hcall).trans (h.calls call hcall)
  calm hcalm := h'.calm (h.calm hcalm)

theorem Looked.group?_eq (h : Looked p p') (name : String) : p'.group? name = p.group? name := by
  rw [group?, group?, h.records.groups_eq]

/-! ## Reads -/

/-- A call that does not write. -/
theorem store_looked (h : Orderly p) {r : StoreRequest} (hr : r.call.writes = false) :
    Looked p (answerGroup (.store r) p).2 where
  orderly := h.answerGroup (.store r)
  now_eq := rfl
  records := by
    change p.store.memory.SameRecords (p.store.answer r).2.memory
    obtain ⟨-, hcarried | ⟨e, -, hs⟩⟩ := h.honest.answer_cases r
    · generalize (p.store.answer r).1 = a at hcarried
      generalize (p.store.answer r).2.memory = memory at hcarried
      cases hcarried with
      | get name => exact .refl _
      | list => exact .refl _
      | create habsent => cases hr
      | replace hcurrent hversion => cases hr
    · exact hs
  calls call hcall := by
    change (p.store.answer r).2.calls.get? call.name = _
    have hne : r.call.name ≠ call.name := by
      intro heq
      cases hc : r.call <;> cases call <;> simp_all [StoreCall.writes, StoreCall.name]
    rw [ScriptedStore.answer_calls, KeyMap.get?_insert, if_neg hne]
  calm hcalm := (hcalm.answer r).2.2

/-- What a read comes to: it has found a value, unless it has failed; and it fails only if
something disturbs the store. -/
structure Finds {ε α : Type} (p : Pipeline) (v : α) (run : Except ε α × Pipeline) : Prop where
  looked : Looked p run.2
  eq_of_ok : ∀ a, run.1 = .ok a → a = v
  of_calm : p.store.Calm → run.1 = .ok v

theorem Finds.of_looked {ε α : Type} {v : α} {run : Except ε α × Pipeline} (h : Looked p p')
    (F : Finds p' v run) : Finds p v run :=
  ⟨h.trans F.looked, F.eq_of_ok, fun hcalm => F.of_calm (h.calm hcalm)⟩

/-- A call of the store that finds what is stored. -/
theorem answer_get_finds (h : Orderly p) (name : String) :
    Finds p (p.group? name) (answerGroup (.store (.get name)) p) where
  looked := store_looked h rfl
  eq_of_ok a ha := by
    change (p.store.answer (.get name)).1 = .ok a at ha
    obtain ⟨-, hcarried | ⟨e, herror, -⟩⟩ := h.honest.answer_cases (.get name)
    · rw [ha] at hcarried
      generalize (p.store.answer (.get name)).2.memory = memory at hcarried
      cases hcarried
      rfl
    · rw [ha] at herror
      cases herror
  of_calm hcalm := by
    change (p.store.answer (.get name)).1 = _
    rw [(hcalm.answer _).1, MemoryStore.answer, hcalm.memory.get_eq]
    rfl

theorem answer_list_finds (h : Orderly p) :
    Finds p p.store.memory.groups.values (answerGroup (.store .list) p) where
  looked := store_looked h rfl
  eq_of_ok a ha := by
    change (p.store.answer .list).1 = .ok a at ha
    obtain ⟨-, hcarried | ⟨e, herror, -⟩⟩ := h.honest.answer_cases .list
    · rw [ha] at hcarried
      generalize (p.store.answer .list).2.memory = memory at hcarried
      cases hcarried
      rfl
    · rw [ha] at herror
      cases herror
  of_calm hcalm := by
    change (p.store.answer .list).1 = _
    rw [(hcalm.answer _).1, MemoryStore.answer, hcalm.memory.list_eq]

/-- A read is repeated until it has found what it looks for, which stays what it is. -/
theorem retryFrom_finds {r : StoreRequest} {v : r.Value} (h : Orderly p)
    (hfinds : ∀ p', Looked p p' → Finds p' v (answerGroup (.store r) p')) (attempt left : Nat) :
    Finds p v (p.onGroups (Aggregator.retryFrom retry r attempt left)) := by
  induction left generalizing attempt p with
  | zero => exact hfinds p (.refl h)
  | succ left ih =>
    have F : Finds p v (p.onGroups (Aggregator.store r)) := hfinds p (.refl h)
    rw [Aggregator.retryFrom, Program.monad_bind_eq, onGroups_bind]
    generalize p.onGroups (Aggregator.store r) = run at F ⊢
    obtain ⟨a, p₁⟩ := run
    cases a with
    | ok a => exact F
    | error e =>
      have hnotCalm : ¬p.store.Calm := fun hcalm => nomatch F.of_calm hcalm
      dsimp only
      by_cases he : e.isRetryable
      · rw [if_pos he]
        have hpaused : Looked p (p₁.onGroups (Aggregator.pause (retry.backoff attempt))).2 :=
          F.looked.trans ⟨F.looked.orderly.answerGroup (.pause _), rfl, .refl _, fun _ _ => rfl, id⟩
        exact (ih hpaused.orderly (fun p' hp' => hfinds p' (hpaused.trans hp')) (attempt + 1)).of_looked
          hpaused
      · rw [if_neg he]
        exact ⟨F.looked, nofun, fun hcalm => absurd hcalm hnotCalm⟩

/-- What follows a read goes on with what the read has found; if that has failed, it fails. -/
theorem Finds.bind {ε ε' α β : Type} {v : α} {w : β} {program : GroupProgram (Except ε α)}
    {next : Except ε α → GroupProgram (Except ε' β)} (F : Finds p v (p.onGroups program))
    (hok : ∀ p', Looked p p' → Finds p' w (p'.onGroups (next (.ok v))))
    (herror : ∀ e, ∃ e', next (.error e) = .done (.error e')) :
    Finds p w (p.onGroups (program.bind next)) := by
  rw [onGroups_bind]
  generalize p.onGroups program = run at F ⊢
  obtain ⟨a, p₁⟩ := run
  cases a with
  | ok a =>
    obtain rfl := F.eq_of_ok a rfl
    exact (hok p₁ F.looked).of_looked F.looked
  | error e =>
    obtain ⟨e', hnext⟩ := herror e
    rw [hnext]
    exact ⟨F.looked, nofun, fun hcalm => nomatch F.of_calm hcalm⟩

theorem finds_done {ε α : Type} (h : Orderly p) (v : α) :
    Finds p v (p.onGroups (.done (.ok v : Except ε α))) where
  looked := .refl h
  eq_of_ok _ ha := (Except.ok.inj ha).symm
  of_calm _ := rfl

/-- A group that is fetched is the stored one. -/
theorem get_finds (retry : RetryPolicy) (h : Orderly p) (name : String) :
    Finds p (p.group? name) (p.onGroups (Aggregator.get retry name)) := by
  have F : Finds p (p.group? name) (p.onGroups (Aggregator.retrying retry (.get name))) := by
    refine retryFrom_finds (r := .get name) h (fun p' hp' => ?_) 1 retry.retries
    rw [← hp'.group?_eq]
    exact answer_get_finds hp'.orderly name
  exact F.bind (fun p' hp' => finds_done hp'.orderly _) fun e => ⟨_, rfl⟩

/-- The groups that are listed are those that select by labels. -/
theorem selectorGroups_finds (retry : RetryPolicy) (h : Orderly p) :
    Finds p p.selecting (p.onGroups (Aggregator.selectorGroups retry)) := by
  have F : Finds p p.store.memory.groups.values (p.onGroups (Aggregator.retrying retry .list)) := by
    refine retryFrom_finds (r := .list) h (fun p' hp' => ?_) 1 retry.retries
    rw [← hp'.records.groups_eq]
    exact answer_list_finds hp'.orderly
  exact F.bind (fun p' hp' => finds_done hp'.orderly _) fun e => ⟨_, rfl⟩

/-- A group that is there is not created. -/
theorem getOrCreate_finds (h : Orderly p) {g : StoredGroup} (hg : p.group? name = some g)
    (type : GroupType) : Finds p g (p.onGroups (Aggregator.getOrCreate retry name type)) := by
  refine (get_finds retry h name).bind (fun p' hp' => ?_) fun e => ⟨_, rfl⟩
  rw [hg]
  exact finds_done hp'.orderly g

/-- What a change finds if it need not create it. -/
theorem current_finds (retry : RetryPolicy) (h : Orderly p)
    (hfound : createAs = none ∨ (p.group? name).isSome) :
    Finds p (p.group? name) (p.onGroups (Aggregator.current retry name createAs)) := by
  cases createAs with
  | none => exact get_finds retry h name
  | some type =>
    obtain ⟨g, hg⟩ := Option.isSome_iff_exists.mp (hfound.resolve_left nofun)
    rw [hg]
    exact (getOrCreate_finds h hg type).bind (fun p' hp' => finds_done hp'.orderly _)
      fun e => ⟨_, rfl⟩

/-! ## Changes that have nothing to do -/

/-- The change of a record leaves it as it is; if it would create it, it is there. -/
structure Done (name : String) (createAs : Option GroupType) (change : GroupSpec → GroupSpec)
    (p : Pipeline) : Prop where
  found : createAs = none ∨ (p.group? name).isSome
  same : ∀ s, p.spec? name = some s → (change s).pruneActivity (Month.start p.now) = s

theorem attemptOnce_looked (retry : RetryPolicy) (h : Orderly p)
    (hdone : Done name createAs change p) :
    Looked p (p.onGroups (Aggregator.attemptOnce retry name createAs change)).2 ∧
      ∃ result, (p.onGroups (Aggregator.attemptOnce retry name createAs change)).1 =
        .finished result := by
  have F := current_finds retry h hdone.found
  rw [Aggregator.attemptOnce, Program.monad_bind_eq, onGroups_bind]
  generalize p.onGroups (Aggregator.current retry name createAs) = run at F ⊢
  obtain ⟨a, p₁⟩ := run
  rcases a with e | _ | g
  · exact ⟨F.looked, _, rfl⟩
  · exact ⟨F.looked, _, rfl⟩
  · have hsame := hdone.same g.spec (spec?_of_group? (F.eq_of_ok _ rfl).symm)
    rw [← F.looked.now_eq] at hsame
    dsimp only
    rw [Program.monad_bind_eq, onGroups_clock, if_pos hsame]
    exact ⟨F.looked, _, rfl⟩

theorem modify_looked (retry : RetryPolicy) (h : Orderly p)
    (hdone : Done name createAs change p) :
    Looked p (p.onGroups (Aggregator.modify retry name createAs change)).2 := by
  obtain ⟨L, result, hresult⟩ := attemptOnce_looked retry h hdone
  rw [Aggregator.modify]
  cases retry.retries with
  | zero =>
    rw [Aggregator.modifyFrom, Program.monad_bind_eq, onGroups_bind, hresult]
    exact L
  | succ left =>
    rw [Aggregator.modifyFrom, Program.monad_bind_eq, onGroups_bind, hresult]
    exact L

theorem upsert_looked (h : Orderly p) {type : GroupType} {key : String} {usage : MemberUsage}
    (hdone : Done name (some type) (·.upsertMember key usage) p) :
    Looked p (p.onGroups (Aggregator.upsert retry name type key usage)).2 := by
  have L := modify_looked retry h hdone
  rw [Aggregator.upsert, Program.monad_bind_eq, onGroups_bind]
  generalize p.onGroups (Aggregator.modify retry name (some type) (·.upsertMember key usage)) = run
    at L ⊢
  obtain ⟨e | _ | g, p₁⟩ := run
  · exact L
  · exact L
  · exact L

theorem remove_looked (h : Orderly p) {key : String} {ended : Instant}
    (hdone : Done name none (·.removeMember key ended) p) :
    Looked p (p.onGroups (Aggregator.remove retry name key ended)).2 :=
  modify_looked retry h hdone

theorem onGroups_discard {α : Type} (p : Pipeline)
    (program : GroupProgram (Except AggregateError α)) :
    (p.onGroups (Membership.discard program)).2 = (p.onGroups program).2 := by
  rw [Membership.discard, Program.monad_bind_eq, onGroups_bind]
  cases (p.onGroups program).1 with
  | ok a => rfl
  | error e => rfl

/-- What follows is only done if what comes first has not failed. -/
theorem andThen_cases (p : Pipeline) (first second : GroupProgram (Except AggregateError Unit)) :
    (p.onGroups (Membership.andThen first second)).2 = (p.onGroups first).2 ∨
      (p.onGroups first).1 = .ok () ∧
        p.onGroups (Membership.andThen first second) = (p.onGroups first).2.onGroups second := by
  rw [Membership.andThen, Program.monad_bind_eq, onGroups_bind]
  cases (p.onGroups first).1 with
  | ok a => exact .inr ⟨rfl, rfl⟩
  | error e => exact .inl rfl

theorem andThen_looked {first second : GroupProgram (Except AggregateError Unit)}
    (hfirst : Looked p (p.onGroups first).2)
    (hsecond : ∀ p', Looked p p' → Looked p' (p'.onGroups second).2) :
    Looked p (p.onGroups (Membership.andThen first second)).2 := by
  rcases andThen_cases p first second with h | ⟨-, h⟩
  · rw [h]
    exact hfirst
  · rw [h]
    exact hfirst.trans (hsecond _ hfirst)

/-- By induction on the groups. -/
theorem inTurn_looked (h : Orderly p)
    {step : StoredGroup → GroupProgram (Except AggregateError Unit)} {gs : List StoredGroup}
    (hstep : ∀ g ∈ gs, ∀ p', Looked p p' → Looked p' (p'.onGroups (step g)).2) :
    Looked p (p.onGroups (Membership.inTurn step gs)).2 := by
  induction gs generalizing p with
  | nil => exact .refl h
  | cons g rest ih =>
    rw [Membership.inTurn]
    refine andThen_looked (hstep g List.mem_cons_self p (.refl h)) fun p' hp' => ?_
    exact ih hp'.orderly fun g' hg' p'' hp'' =>
      hstep g' (List.mem_cons_of_mem g hg') p'' (hp'.trans hp'')

theorem inSelectorGroups_looked (h : Orderly p)
    {step : StoredGroup → GroupProgram (Except AggregateError Unit)}
    (hstep : ∀ g, p.group? g.name = some g → g.spec.type ≠ .byNamespace →
      ∀ p', Looked p p' → Looked p' (p'.onGroups (step g)).2) :
    Looked p (p.onGroups (Membership.inSelectorGroups retry step)).2 := by
  have F := selectorGroups_finds retry h
  rw [Membership.inSelectorGroups, Program.monad_bind_eq, onGroups_bind]
  generalize p.onGroups (Aggregator.selectorGroups retry) = run at F ⊢
  obtain ⟨e | gs, p₁⟩ := run
  · exact F.looked
  · obtain rfl := F.eq_of_ok gs rfl
    refine F.looked.trans (inTurn_looked F.looked.orderly fun g hg p' hp' => ?_)
    obtain ⟨hstored, htype⟩ := (mem_selecting_iff h).mp hg
    exact hstep g hstored htype p' (F.looked.trans hp')

/-! ## Groups that a pod has joined or left already -/

/-- All records are what a move makes of them. -/
structure Stays (group : String) (createAs : Option GroupType) (own f : GroupSpec → GroupSpec)
    (p : Pipeline) : Prop where
  entered : ∀ name, Membership.entered group createAs own name (p.spec? name) = p.spec? name
  next : ∀ name, (p.spec? name).map (Membership.inSelecting f) = p.spec? name

variable {group : String} {own f : GroupSpec → GroupSpec} {g : StoredGroup} {pod : PodMember}
  {usage : MemberUsage} {observed ended : Instant}

theorem Stays.done (S : Stays group createAs
    (fun s => (change s).pruneActivity (Month.start p.now)) f p) : Done group createAs change p := by
  have hentered := S.entered group
  rw [Membership.entered_self] at hentered
  refine ⟨?_, fun s hs => ?_⟩
  · cases createAs with
    | none => exact .inl rfl
    | some type =>
      refine .inr ?_
      have hspec : (p.spec? group).isSome := by
        rw [← hentered]
        cases p.spec? group <;> rfl
      exact Option.isSome_map.symm.trans hspec
  · rw [hs] at hentered
    exact Option.some_inj.mp hentered

theorem Stays.next_eq (S : Stays group createAs own f p) (hg : p.group? g.name = some g)
    (htype : g.spec.type ≠ .byNamespace) : f g.spec = g.spec := by
  have hnext := S.next g.name
  rw [spec?_of_group? hg, Option.map_some, Membership.inSelecting_of_ne htype] at hnext
  exact Option.some_inj.mp hnext

/-- A change of a stored record that makes of it what it is. -/
theorem done_of_group? (hg : p.group? g.name = some g)
    (hsame : (change g.spec).pruneActivity (Month.start p.now) = g.spec) :
    Done g.name createAs change p where
  found := .inr (by rw [hg]; rfl)
  same s hs := by
    rw [spec?_of_group? hg] at hs
    cases hs
    exact hsame

theorem settle_looked (h : Orderly p) (hg : p.group? g.name = some g)
    (hsame : g.spec.settled pod usage observed p.now = g.spec) :
    Looked p (p.onGroups (Membership.settle retry pod usage observed g)).2 := by
  rw [GroupSpec.settled] at hsame
  rw [Membership.settle]
  by_cases hselects : g.spec.selects pod.labels
  · rw [if_pos hselects] at hsame ⊢
    rw [onGroups_discard]
    exact upsert_looked h (done_of_group? hg hsame)
  · rw [if_neg hselects] at hsame ⊢
    by_cases hmember : g.spec.hasMember pod.selectorKey
    · rw [if_pos hmember] at hsame ⊢
      rw [onGroups_discard]
      exact remove_looked h (done_of_group? hg hsame)
    · rw [if_neg hmember]
      exact .refl h

theorem release_looked (h : Orderly p) (hg : p.group? g.name = some g)
    (hsame : g.spec.released pod ended p.now = g.spec) :
    Looked p (p.onGroups (Membership.release retry pod ended g)).2 := by
  rw [GroupSpec.released] at hsame
  rw [Membership.release]
  by_cases hmember : g.spec.hasMember pod.selectorKey
  · rw [if_pos hmember] at hsame ⊢
    rw [onGroups_discard]
    exact remove_looked h (done_of_group? hg hsame)
  · rw [if_neg hmember]
    exact .refl h

/-- A pod that has joined its groups already. -/
theorem join_looked (h : Orderly p) {labelGroups : Bool}
    (S : Stays pod.namespaceGroup (some .byNamespace) (GroupSpec.upserted pod.name usage p.now)
      (if labelGroups then GroupSpec.settled pod usage observed p.now else id) p) :
    Looked p (p.onGroups (Membership.join retry labelGroups pod usage observed)).2 := by
  rw [Membership.join]
  refine andThen_looked ?_ fun p' hp' => ?_
  · rw [onGroups_discard]
    exact upsert_looked h S.done
  · cases labelGroups with
    | false => exact .refl hp'.orderly
    | true =>
      simp only [if_true] at S ⊢
      refine inSelectorGroups_looked hp'.orderly fun g hg htype p'' hp'' => ?_
      have hlooked := hp'.trans hp''
      have hstored : p.group? g.name = some g := (hp'.group?_eq g.name).symm.trans hg
      refine settle_looked hp''.orderly ((hlooked.group?_eq g.name).trans hstored) ?_
      rw [hlooked.now_eq]
      exact S.next_eq hstored htype

/-- A pod that has left its groups already. -/
theorem leave_looked (h : Orderly p)
    (S : Stays pod.namespaceGroup none (GroupSpec.removed pod.name ended p.now)
      (GroupSpec.released pod ended p.now) p) :
    Looked p (p.onGroups (Membership.leave retry pod ended)).2 := by
  rw [Membership.leave]
  refine andThen_looked ?_ fun p' hp' => ?_
  · rw [onGroups_discard]
    exact remove_looked h S.done
  · refine inSelectorGroups_looked hp'.orderly fun g hg htype p'' hp'' => ?_
    have hlooked := hp'.trans hp''
    have hstored : p.group? g.name = some g := (hp'.group?_eq g.name).symm.trans hg
    refine release_looked hp''.orderly ((hlooked.group?_eq g.name).trans hstored) ?_
    rw [hlooked.now_eq]
    exact S.next_eq hstored htype

end Pipeline

end Chargeback
