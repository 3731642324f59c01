import EnergyMeter.Proofs.History

/-!
The language of a bus.  Every history of a meter makes calls in closed pieces,
each of which leaves the bus disconnected, and at most one session at the end
that is still open.  The lifecycle state tells which of the two it is.
-/

namespace EnergyMeter

variable {β ε η : Type}

/-- After this call the bus is not connected. -/
def Call.Closes : Call ε η → Prop
  | .disconnect _ | .connect (.error _) => True
  | .connect (.ok ()) | .configure .. | .transfer .. | .write .. => False

/-- A piece of a trace that leaves the bus disconnected. -/
inductive SessionPiece (speedHz : UInt32) : List (Call ε η) → Prop where
  | stray (closed : Except ε Unit) : SessionPiece speedHz [.disconnect closed]
  | unconnected (fault : ε) : SessionPiece speedHz [.connect (.error fault)]
  | rejected (fault : ε) (closed : Except ε Unit) :
      SessionPiece speedHz
        [.connect (.ok ()), .configure speedHz (.error fault), .disconnect closed]
  | session {exchanges : List (Call ε η)} (moves : ∀ call ∈ exchanges, call.IsExchange)
      (closed : Except ε Unit) :
      SessionPiece speedHz
        (.connect (.ok ()) :: .configure speedHz (.ok ()) :: (exchanges ++ [.disconnect closed]))

/-- A session without its end. -/
inductive UnclosedSession (speedHz : UInt32) : List (Call ε η) → Prop where
  | session {exchanges : List (Call ε η)} (moves : ∀ call ∈ exchanges, call.IsExchange) :
      UnclosedSession speedHz (.connect (.ok ()) :: .configure speedHz (.ok ()) :: exchanges)

theorem SessionPiece.exists_closes {speedHz : UInt32} {piece : List (Call ε η)}
    (h : SessionPiece speedHz piece) : ∃ front last, piece = front ++ [last] ∧ last.Closes := by
  cases h with
  | stray closed => exact ⟨[], _, rfl, trivial⟩
  | unconnected fault => exact ⟨[], _, rfl, trivial⟩
  | rejected fault closed => exact ⟨[_, _], _, rfl, trivial⟩
  | session moves closed => exact ⟨_ :: _ :: _, _, rfl, trivial⟩

theorem UnclosedSession.exists_not_closes {speedHz : UInt32} {session : List (Call ε η)}
    (h : UnclosedSession speedHz session) :
    ∃ front last, session = front ++ [last] ∧ ¬ last.Closes := by
  obtain ⟨moves⟩ := h
  rename_i exchanges
  cases exchanges using List.reverseRecOn with
  | nil => exact ⟨[_], _, rfl, id⟩
  | append_singleton exchanges last _ =>
      refine ⟨_ :: _ :: exchanges, last, rfl, ?_⟩
      have hlast := moves last (by simp)
      cases last with
      | transfer sent size result => exact id
      | write sent result => exact id
      | _ => exact absurd hlast id

/-- A trace of closed pieces. -/
def ClosedTrace (speedHz : UInt32) (trace : List (Call ε η)) : Prop :=
  ∃ pieces : List (List (Call ε η)),
    (∀ piece ∈ pieces, SessionPiece speedHz piece) ∧ trace = pieces.flatten

/-- A trace that ends inside a session. -/
def OpenTrace (speedHz : UInt32) (trace : List (Call ε η)) : Prop :=
  ∃ earlier session, ClosedTrace speedHz earlier ∧ UnclosedSession speedHz session ∧
    trace = earlier ++ session

/-- The language of a bus with a fixed clock. -/
def SessionTrace (speedHz : UInt32) (trace : List (Call ε η)) : Prop :=
  ClosedTrace speedHz trace ∨ OpenTrace speedHz trace

variable {speedHz : UInt32}

namespace ClosedTrace

theorem nil : ClosedTrace speedHz ([] : List (Call ε η)) :=
  ⟨[], by simp, rfl⟩

theorem piece {trace : List (Call ε η)} (h : SessionPiece speedHz trace) :
    ClosedTrace speedHz trace :=
  ⟨[trace], by simpa using h, by simp⟩

theorem append {first second : List (Call ε η)} (hfirst : ClosedTrace speedHz first)
    (hsecond : ClosedTrace speedHz second) : ClosedTrace speedHz (first ++ second) := by
  obtain ⟨pieces, hpieces, rfl⟩ := hfirst
  obtain ⟨more, hmore, rfl⟩ := hsecond
  refine ⟨pieces ++ more, ?_, List.flatten_append.symm⟩
  intro piece hpiece
  rcases List.mem_append.mp hpiece with hpiece | hpiece
  · exact hpieces piece hpiece
  · exact hmore piece hpiece

/-- A closed trace ends with a call that leaves the bus disconnected. -/
theorem closes {front : List (Call ε η)} {last : Call ε η}
    (h : ClosedTrace speedHz (front ++ [last])) : last.Closes := by
  obtain ⟨pieces, hpieces, heq⟩ := h
  cases pieces using List.reverseRecOn with
  | nil => simp at heq
  | append_singleton pieces piece _ =>
      obtain ⟨start, final, rfl, hfinal⟩ := (hpieces piece (by simp)).exists_closes
      rw [List.flatten_append, List.flatten_singleton, ← List.append_assoc] at heq
      obtain rfl := List.singleton_inj.mp (List.append_inj' heq rfl).2
      exact hfinal

end ClosedTrace

namespace OpenTrace

theorem of_unclosed {earlier session : List (Call ε η)} (hearlier : ClosedTrace speedHz earlier)
    (hsession : UnclosedSession speedHz session) : OpenTrace speedHz (earlier ++ session) :=
  ⟨earlier, session, hearlier, hsession, rfl⟩

theorem append {trace exchanges : List (Call ε η)} (h : OpenTrace speedHz trace)
    (hmoves : ∀ call ∈ exchanges, call.IsExchange) : OpenTrace speedHz (trace ++ exchanges) := by
  obtain ⟨earlier, session, hearlier, ⟨moves⟩, rfl⟩ := h
  rw [List.append_assoc]
  apply of_unclosed hearlier
  rw [List.cons_append, List.cons_append]
  apply UnclosedSession.session
  intro call hcall
  rcases List.mem_append.mp hcall with hcall | hcall
  · exact moves call hcall
  · exact hmoves call hcall

theorem disconnect {trace : List (Call ε η)} (h : OpenTrace speedHz trace)
    (closed : Except ε Unit) : ClosedTrace speedHz (trace ++ [.disconnect closed]) := by
  obtain ⟨earlier, session, hearlier, ⟨moves⟩, rfl⟩ := h
  rw [List.append_assoc]
  exact hearlier.append (.piece (.session moves closed))

theorem not_closed {trace : List (Call ε η)} (h : OpenTrace speedHz trace) :
    ¬ ClosedTrace speedHz trace := by
  obtain ⟨earlier, session, hearlier, hsession, rfl⟩ := h
  obtain ⟨front, last, rfl, hlast⟩ := hsession.exists_not_closes
  intro hclosed
  rw [← List.append_assoc] at hclosed
  exact hlast hclosed.closes

end OpenTrace

/-- An element of two joined lists stands in the first or in the second. -/
theorem append_cons_eq_append_cases {α : Type} {before later first second : List α} {element : α}
    (h : before ++ element :: later = first ++ second) :
    (∃ outer, first = before ++ element :: outer ∧ later = outer ++ second) ∨
      ∃ inner, before = first ++ inner ∧ second = inner ++ element :: later := by
  rcases List.append_eq_append_iff.mp h with ⟨tail, hfirst, hsecond⟩ | ⟨inner, hfirst, hsecond⟩
  · cases tail with
    | nil => exact .inr ⟨[], by simpa using hfirst.symm, by simpa using hsecond.symm⟩
    | cons head outer =>
        obtain ⟨rfl, hlater⟩ := List.cons.inj hsecond
        exact .inl ⟨outer, hfirst, hlater⟩
  · exact .inr ⟨inner, hfirst, hsecond⟩

/-- A call of a closed trace stands in one of its pieces. -/
theorem ClosedTrace.split {before later : List (Call ε η)} {call : Call ε η}
    (h : ClosedTrace speedHz (before ++ call :: later)) :
    ∃ earlier inner outer rest, ClosedTrace speedHz earlier ∧ ClosedTrace speedHz rest ∧
      SessionPiece speedHz (inner ++ call :: outer) ∧
      before = earlier ++ inner ∧ later = outer ++ rest := by
  obtain ⟨pieces, hpieces, heq⟩ := h
  induction pieces generalizing before with
  | nil => simp at heq
  | cons piece pieces ih =>
      have hpiece := hpieces piece List.mem_cons_self
      have htail := fun other hother => hpieces other (List.mem_cons_of_mem _ hother)
      rcases append_cons_eq_append_cases heq with ⟨outer, hfirst, hlater⟩ | ⟨middle, rfl, hsecond⟩
      · exact ⟨[], before, outer, pieces.flatten, .nil, ⟨pieces, htail, rfl⟩, hfirst ▸ hpiece,
          rfl, hlater⟩
      · obtain ⟨earlier, inner, outer, rest, hearlier, hrest, hcall, rfl, hlater⟩ :=
          ih htail hsecond.symm
        exact ⟨piece ++ earlier, inner, outer, rest, (ClosedTrace.piece hpiece).append hearlier,
          hrest, hcall, (List.append_assoc ..).symm, hlater⟩

/-- A call of a trace stands in one of its pieces or in the session at its end. -/
theorem SessionTrace.split {before later : List (Call ε η)} {call : Call ε η}
    (h : SessionTrace speedHz (before ++ call :: later)) :
    ∃ earlier inner outer rest, ClosedTrace speedHz earlier ∧
      before = earlier ++ inner ∧ later = outer ++ rest ∧
      (SessionPiece speedHz (inner ++ call :: outer) ∧ SessionTrace speedHz rest ∨
        UnclosedSession speedHz (inner ++ call :: outer) ∧ rest = []) := by
  rcases h with hclosed | ⟨front, session, hfront, hsession, heq⟩
  · obtain ⟨earlier, inner, outer, rest, hearlier, hrest, hcall, hbefore, hlater⟩ := hclosed.split
    exact ⟨earlier, inner, outer, rest, hearlier, hbefore, hlater, .inl ⟨hcall, .inl hrest⟩⟩
  · rcases append_cons_eq_append_cases heq with ⟨tail, rfl, hlater⟩ | ⟨inner, hbefore, rfl⟩
    · obtain ⟨earlier, inner, outer, rest, hearlier, hrest, hcall, hbefore, rfl⟩ := hfront.split
      exact ⟨earlier, inner, outer, rest ++ session, hearlier, hbefore,
        hlater.trans (List.append_assoc ..),
        .inl ⟨hcall, .inr (.of_unclosed hrest hsession)⟩⟩
    · exact ⟨front, inner, later, [], hfront, hbefore, (List.append_nil later).symm,
        .inr ⟨hsession, rfl⟩⟩

/-- Before an exchange of a session stands a session that is still open. -/
theorem UnclosedSession.of_append {inner outer exchanges : List (Call ε η)} {call : Call ε η}
    (hmoves : call.IsExchange) (moves : ∀ other ∈ exchanges, other.IsExchange)
    (closing : List (Call ε η)) (hclosing : ∀ other ∈ closing, ¬ other.IsExchange)
    (heq : inner ++ call :: outer =
      .connect (.ok ()) :: .configure speedHz (.ok ()) :: (exchanges ++ closing)) :
    UnclosedSession speedHz inner := by
  rcases inner with _ | ⟨first, _ | ⟨second, inner⟩⟩
  · obtain ⟨rfl, -⟩ := List.cons.inj heq
    exact absurd hmoves id
  · obtain ⟨-, htail⟩ := List.cons.inj heq
    obtain ⟨rfl, -⟩ := List.cons.inj htail
    exact absurd hmoves id
  · obtain ⟨rfl, htail⟩ := List.cons.inj heq
    obtain ⟨rfl, hrest⟩ := List.cons.inj htail
    rcases append_cons_eq_append_cases hrest with ⟨behind, rfl, -⟩ | ⟨front, -, rfl⟩
    · exact .session fun other hother => moves other (List.mem_append_left _ hother)
    · exact absurd hmoves (hclosing call (by simp))

theorem SessionPiece.unclosed_before_exchange {inner outer : List (Call ε η)} {call : Call ε η}
    (h : SessionPiece speedHz (inner ++ call :: outer)) (hmoves : call.IsExchange) :
    UnclosedSession speedHz inner := by
  generalize heq : inner ++ call :: outer = piece at h
  have hmem : call ∈ piece := by simp [← heq]
  cases h with
  | stray closed =>
      obtain rfl := List.mem_singleton.mp hmem
      exact absurd hmoves id
  | unconnected fault =>
      obtain rfl := List.mem_singleton.mp hmem
      exact absurd hmoves id
  | rejected fault closed =>
      simp only [List.mem_cons, List.not_mem_nil, or_false] at hmem
      rcases hmem with rfl | rfl | rfl <;> exact absurd hmoves id
  | session moves closed => exact .of_append hmoves moves _ (by simp [Call.IsExchange]) heq

theorem UnclosedSession.unclosed_before_exchange {inner outer : List (Call ε η)}
    {call : Call ε η} (h : UnclosedSession speedHz (inner ++ call :: outer))
    (hmoves : call.IsExchange) : UnclosedSession speedHz inner := by
  generalize heq : inner ++ call :: outer = session at h
  obtain ⟨moves⟩ := h
  exact .of_append hmoves moves [] (by simp) (by simpa using heq)

/-- Only the first call of a piece connects the bus. -/
theorem SessionPiece.connect_not_mem_tail {first : Call ε η} {tail : List (Call ε η)}
    (h : SessionPiece speedHz (first :: tail)) (result : Except ε Unit) :
    .connect result ∉ tail := by
  cases h with
  | session moves closed =>
      intro hmem
      simp only [List.mem_cons, List.mem_append, List.not_mem_nil, reduceCtorEq, false_or,
        or_false] at hmem
      exact moves _ hmem
  | _ => simp

theorem UnclosedSession.connect_not_mem_tail {first : Call ε η} {tail : List (Call ε η)}
    (h : UnclosedSession speedHz (first :: tail)) (result : Except ε Unit) :
    .connect result ∉ tail := by
  obtain ⟨moves⟩ := h
  intro hmem
  simp only [List.mem_cons, reduceCtorEq, false_or] at hmem
  exact moves _ hmem

theorem SessionPiece.disconnect_after_rejection {inner outer : List (Call ε η)} {clock : UInt32}
    {fault : ε} (h : SessionPiece speedHz (inner ++ .configure clock (.error fault) :: outer)) :
    ∃ closed, outer = [.disconnect closed] := by
  generalize heq : inner ++ .configure clock (.error fault) :: outer = piece at h
  have hmem : .configure clock (.error fault) ∈ piece := heq ▸ List.mem_append_cons_self
  cases h with
  | stray closed => simp at hmem
  | unconnected other => simp at hmem
  | rejected other closed =>
      rcases inner with _ | ⟨first, _ | ⟨second, inner⟩⟩
      · simp at heq
      · obtain ⟨-, houter⟩ := List.cons.inj (List.cons.inj heq).2
        exact ⟨closed, houter⟩
      · have hlast :
            .configure clock (.error fault) ∈ ([.disconnect closed] : List (Call ε η)) := by
          rw [← (List.cons.inj (List.cons.inj heq).2).2]
          exact List.mem_append_cons_self
        simp at hlast
  | session moves closed =>
      simp only [List.mem_cons, List.mem_append, List.not_mem_nil, reduceCtorEq, and_false,
        false_or, or_false, Call.configure.injEq] at hmem
      exact absurd (moves _ hmem) id

theorem UnclosedSession.configured {session : List (Call ε η)} (h : UnclosedSession speedHz session)
    {clock : UInt32} {result : Except ε Unit} (hmem : .configure clock result ∈ session) :
    result = .ok () := by
  obtain ⟨moves⟩ := h
  simp only [List.mem_cons, reduceCtorEq, false_or, Call.configure.injEq] at hmem
  exact hmem.elim And.right fun hmem => absurd (moves _ hmem) id

namespace SessionTrace

variable {before later : List (Call ε η)} {call : Call ε η}

/-- Bytes move only within an open session. -/
theorem open_before_exchange (h : SessionTrace speedHz (before ++ call :: later))
    (hmoves : call.IsExchange) : OpenTrace speedHz before := by
  obtain ⟨earlier, inner, outer, rest, hearlier, rfl, -, ⟨hpiece, -⟩ | ⟨hsession, -⟩⟩ := h.split
  · exact .of_unclosed hearlier (hpiece.unclosed_before_exchange hmoves)
  · exact .of_unclosed hearlier (hsession.unclosed_before_exchange hmoves)

/-- Only a disconnected bus is connected. -/
theorem closed_before_connect {result : Except ε Unit}
    (h : SessionTrace speedHz (before ++ .connect result :: later)) :
    ClosedTrace speedHz before := by
  obtain ⟨earlier, inner, outer, rest, hearlier, rfl, -, hplace⟩ := h.split
  cases inner with
  | nil => simpa using hearlier
  | cons first inner =>
      rcases hplace with ⟨hpiece, -⟩ | ⟨hsession, -⟩
      · exact absurd List.mem_append_cons_self (hpiece.connect_not_mem_tail result)
      · exact absurd List.mem_append_cons_self (hsession.connect_not_mem_tail result)

/-- A bus that refuses its clock is disconnected at once, and the rest is a
trace of its own. -/
theorem disconnect_after_rejection {clock : UInt32} {fault : ε}
    (h : SessionTrace speedHz (before ++ .configure clock (.error fault) :: later)) :
    ∃ closed rest, later = .disconnect closed :: rest ∧
      ClosedTrace speedHz (before ++ [.configure clock (.error fault), .disconnect closed]) ∧
      SessionTrace speedHz rest := by
  obtain ⟨earlier, inner, outer, rest, hearlier, rfl, rfl, hplace⟩ := h.split
  rcases hplace with ⟨hpiece, hrest⟩ | ⟨hsession, -⟩
  · obtain ⟨closed, rfl⟩ := hpiece.disconnect_after_rejection
    refine ⟨closed, rest, rfl, ?_, hrest⟩
    rw [List.append_assoc]
    exact hearlier.append (.piece hpiece)
  · have haccepted := hsession.configured List.mem_append_cons_self
    exact absurd haccepted (by simp)

end SessionTrace

theorem Opening.isPiece_or_unclosed {made : List (Call ε η)} {outcome : Outcome (Error ε) η Unit}
    {state : State} (h : Opening speedHz made outcome state) :
    (state = .uninitialized ∧ SessionPiece speedHz made) ∨
      (state = .initialized ∧ UnclosedSession speedHz made) := by
  cases h with
  | unconnected fault => exact .inl ⟨rfl, .unconnected fault⟩
  | rejected fault closed => exact .inl ⟨rfl, .rejected fault closed⟩
  | opened => exact .inr ⟨rfl, .session (by simp)⟩

variable [Bus β ε η]

/-- The lifecycle state of a meter tells where its trace ends. -/
def FollowsSessions (config : Config) (last : Meter β) (trace : List (Call ε η)) : Prop :=
  last.config = config ∧
    (last.state = .uninitialized ∧ ClosedTrace config.speedHz trace ∨
      last.state ≠ .uninitialized ∧ config.speedHz ≠ 0 ∧ OpenTrace config.speedHz trace)

namespace FollowsSessions

variable {config : Config} {current : Meter β} {trace : List (Call ε η)}

theorem init (h : FollowsSessions config current trace) :
    FollowsSessions config current.init.state (trace ++ calls current.init.journal) := by
  obtain ⟨rfl, hplace⟩ := h
  refine ⟨current.init_config, ?_⟩
  by_cases hidle : current.config.speedHz = 0 ∨ current.isInitialized = true
  · obtain ⟨hcalls, hstate⟩ := Meter.init_idle hidle
    rwa [hcalls, hstate, List.append_nil]
  · rw [not_or, Bool.not_eq_true] at hidle
    obtain ⟨hspeed, hclosed⟩ := hidle
    have hstate := Meter.isInitialized_eq_false_iff.mp hclosed
    have htrace := (hplace.resolve_right fun hopen => hopen.1 hstate).2
    have hopening := (Meter.init_opening hspeed hclosed).1
    rcases hopening.isPiece_or_unclosed with ⟨hlast, hpiece⟩ | ⟨hlast, hsession⟩
    · exact .inl ⟨hlast, htrace.append (.piece hpiece)⟩
    · exact .inr ⟨by simp [hlast], hspeed, .of_unclosed htrace hsession⟩

theorem deinit (h : FollowsSessions config current trace) :
    FollowsSessions config current.deinit.state (trace ++ calls current.deinit.journal) := by
  obtain ⟨rfl, hplace⟩ := h
  rw [Meter.calls_deinit]
  refine ⟨rfl, .inl ⟨rfl, ?_⟩⟩
  rcases hplace with ⟨-, hclosed⟩ | ⟨-, -, hopen⟩
  · exact hclosed.append (.piece (.stray _))
  · exact hopen.disconnect _

/-- Every operation keeps state and trace in step. -/
theorem perform (h : FollowsSessions config current trace) (operation : Operation) :
    FollowsSessions config (current.perform operation).state
      (trace ++ calls (current.perform operation).journal) := by
  by_cases hinit : operation.kind = .init
  · rw [current.perform_init hinit]
    exact h.init
  · by_cases hdeinit : operation.kind = .deinit
    · rw [current.perform_deinit hdeinit]
      exact h.deinit
    · obtain ⟨rfl, hplace⟩ := h
      obtain ⟨hsame, hmoves, hnone⟩ := current.perform_within hinit hdeinit
      refine ⟨current.perform_config operation, ?_⟩
      rcases hplace with ⟨hidle, hclosed⟩ | ⟨hsession, hspeed, hopen⟩
      · have hfalse := Meter.isInitialized_eq_false_iff.mpr hidle
        rw [hnone hfalse, List.append_nil]
        exact .inl ⟨Meter.isInitialized_eq_false_iff.mp (hsame.trans hfalse), hclosed⟩
      · refine .inr ⟨fun hidle => hsession ?_, hspeed, hopen.append hmoves⟩
        exact Meter.isInitialized_eq_false_iff.mp
          (hsame.symm.trans (Meter.isInitialized_eq_false_iff.mpr hidle))

end FollowsSessions

theorem Meter.fresh_followsSessions (bus : β) (config : Config) (operations : List Operation) :
    FollowsSessions config ((Meter.fresh bus config).after operations)
      (calls ((Meter.fresh bus config).journal operations)) := by
  apply (Meter.fresh bus config).history_induction (FollowsSessions config)
  · exact ⟨rfl, .inl ⟨rfl, .nil⟩⟩
  · intro current trace operation h
    exact h.perform operation

/-- Every history of a meter speaks the session language of its clock, and the
bus is within a session exactly when the lifecycle state says so.  So bytes move
only within a session, only a disconnected bus is connected, a refused clock is
followed by a disconnect, and the clock that is set is the configured one and
never stands still. -/
theorem session_protocol (bus : β) (config : Config) (operations : List Operation) :
    let last := (Meter.fresh bus config).after operations
    let trace : List (Call ε η) := calls ((Meter.fresh bus config).journal operations)
    SessionTrace config.speedHz trace ∧
      Replays bus trace last.bus ∧
      (last.state ≠ .uninitialized ↔ OpenTrace config.speedHz trace) ∧
      (∀ before call later, trace = before ++ call :: later → call.IsExchange →
        OpenTrace config.speedHz before) ∧
      (∀ before result later, trace = before ++ .connect result :: later →
        ClosedTrace config.speedHz before) ∧
      (∀ before clock fault later, trace = before ++ .configure clock (.error fault) :: later →
        ∃ closed rest, later = .disconnect closed :: rest ∧
          ClosedTrace config.speedHz
            (before ++ [.configure clock (.error fault), .disconnect closed]) ∧
          SessionTrace config.speedHz rest) ∧
      (∀ clock result, .configure clock result ∈ trace → clock = config.speedHz ∧ clock ≠ 0) ∧
      (config.speedHz = 0 →
        last.state = .uninitialized ∧ calls (last.init : Run (Meter β) ε η Unit).journal = []) := by
  intro last trace
  obtain ⟨hconfig, hplace⟩ := Meter.fresh_followsSessions bus config operations
  have htrace : SessionTrace config.speedHz trace :=
    hplace.imp And.right fun hopen => hopen.2.2
  refine ⟨htrace, (Meter.fresh bus config).replays_after operations, ⟨?_, ?_⟩, ?_, ?_, ?_, ?_, ?_⟩
  · intro hstate
    exact (hplace.resolve_left fun hclosed => hstate hclosed.1).2.2
  · intro hopen
    exact (hplace.resolve_left fun hclosed => hopen.not_closed hclosed.2).1
  · intro before call later heq hmoves
    exact SessionTrace.open_before_exchange (heq ▸ htrace) hmoves
  · intro before result later heq
    exact SessionTrace.closed_before_connect (heq ▸ htrace)
  · intro before clock fault later heq
    exact SessionTrace.disconnect_after_rejection (heq ▸ htrace)
  · intro clock result hmem
    exact (Meter.fresh bus config).configure_mem_journal operations hmem
  · intro hspeed
    have hstate := (hplace.resolve_right fun hopen => hopen.2.1 hspeed).1
    refine ⟨hstate, (Meter.init_idle (.inl ?_)).1⟩
    rw [hconfig, hspeed]

end EnergyMeter
