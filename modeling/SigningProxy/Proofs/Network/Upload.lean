import SigningProxy.Network.Upload

/-!
# What comes out of the pipe

Piping a body with a chunk in front is handing on the chunk and then piping what follows it, later by the wait
for the chunk (`pump_cons`). So, by induction on the chunks, what comes out of the pipe is known from the body
that goes in (`ofPieces_pump`), and the signal is there, or dropped, at the moment when the body is over. The
body itself comes out if and only if the fields behind its chunks do not fail to come (`conveys_watch_iff`).
-/

namespace SigningProxy

theorem Course.delay_delay {ε α : Type} (c : Course ε α) (first second : Nat) :
    (c.delay first).delay second = c.delay (second + first) := by
  simp only [delay, Eventual.delay_delay, List.map_map, Function.comp_def, Nat.add_assoc]

namespace Body

variable {b : Body}

theorem pump_nil (finish : StreamEnd) (trailers : Trailers) :
    (⟨[], finish, trailers⟩ : Body).pump =
      match ending ⟨[], finish, trailers⟩ with
      | .after wait (pieces, signal) => ⟨pieces.map ((wait, ·)), .after wait signal⟩
      | .never => ⟨[], .never⟩ := by
  unfold pump pump.go
  cases ending ⟨[], finish, trailers⟩ with
  | after wait ending =>
      change Course.bind (Course.await (.after wait ending)) (fun ending =>
        Course.bind (Course.note ending.1) fun _ => Course.done ending.2) = _
      simp [Course.bind, Course.await, Course.note, Course.done, Course.delay, Eventual.now, Eventual.delay]
  | never => rfl

theorem pump_cons (wait : Nat) (bytes : List UInt8) (rest : List (Nat × List UInt8)) (finish : StreamEnd)
    (trailers : Trailers) :
    (⟨(wait, bytes) :: rest, finish, trailers⟩ : Body).pump =
      let later := (⟨rest, finish, trailers⟩ : Body).pump.delay wait
      ⟨(wait, .chunk bytes) :: later.events, later.outcome⟩ := by
  change Course.bind (Course.await (.after wait ())) (fun _ =>
    Course.bind (Course.note [.chunk bytes]) fun _ => pump ⟨rest, finish, trailers⟩) = _
  simp [Course.bind, Course.await, Course.note, Course.delay, Eventual.now]

/-! ### The body -/

/-- The stream as it comes out. A failure is the pipe's own, and the end waits for the fields that follow. -/
def relayed (b : Body) : Body where
  chunks := b.chunks
  finish := b.finish.bind fun
    | .error _ => .now (.error .writeAborted)
    | .ok () => b.trailers.map fun _ => .ok ()
  trailers :=
    match b.finish, b.trailers with
    | .after _ (.ok ()), .after _ (.ok fields) => fields
    | _, _ => Headers.empty

theorem ofPieces_abort (since wait : Nat) :
    ofPieces since [(since + wait, .abort)] = ⟨[], .after wait (.error .writeAborted), Headers.empty⟩ := by
  rw [ofPieces, Nat.add_sub_cancel_left]
  rfl

theorem ofPieces_close (since wait : Nat) :
    ofPieces since [(since + wait, .close)] = ⟨[], .after wait (.ok ()), Headers.empty⟩ := by
  rw [ofPieces, Nat.add_sub_cancel_left]
  rfl

theorem ofPieces_ending (since : Nat) (finish : StreamEnd) (trailers : Trailers) :
    ofPieces since ((⟨[], finish, trailers⟩ : Body).pump.delay since).events =
      (⟨[], finish, trailers⟩ : Body).relayed := by
  rw [pump_nil]
  cases finish with
  | never => rfl
  | after wait ended =>
      cases ended with
      | error cause => exact ofPieces_abort since wait
      | ok =>
          cases trailers with
          | never => rfl
          | after late following =>
              have hclose := ofPieces_close since (wait + late)
              cases following with
              | error cause => exact hclose
              | ok fields =>
                  by_cases hempty : fields = .empty
                  · subst hempty
                    exact hclose
                  · -- The fields are put into the stream that the end leaves.
                    simp only [ending, Eventual.bind, Eventual.map, Eventual.delay, if_neg hempty]
                    exact congrArg (fun b : Body => { b with trailers := fields }) hclose

theorem ofPieces_pump (b : Body) (since : Nat) : ofPieces since (b.pump.delay since).events = b.relayed := by
  obtain ⟨chunks, finish, trailers⟩ := b
  induction chunks generalizing since with
  | nil => exact ofPieces_ending since finish trailers
  | cons chunk rest ih =>
      obtain ⟨wait, bytes⟩ := chunk
      have hlater := ih (since + wait)
      rw [pump_cons]
      dsimp only
      rw [← Course.delay_delay] at hlater
      simp only [Course.delay, List.map_cons, ofPieces, Nat.add_sub_cancel_left] at hlater ⊢
      rw [hlater]
      rfl

/-- Whatever has come out so far is the front of what will have come out. -/
theorem chunks_ofPieces_append (since : Nat) (before after : List (Nat × Piece)) :
    (ofPieces since before).chunks <+: (ofPieces since (before ++ after)).chunks := by
  induction before generalizing since with
  | nil => exact List.nil_prefix
  | cons piece before ih =>
      obtain ⟨moment, piece⟩ := piece
      cases piece with
      | chunk bytes => exact (List.prefix_cons_inj _).mpr (ih moment)
      | trailers fields => exact ih since
      | abort => exact List.prefix_rfl
      | close => exact List.prefix_rfl

/-- What is sent for a stream is that stream: the same chunks, and behind them, at the same moment, the same
fields, or a failure where it fails. -/
structure Conveys (source sent : Body) : Prop where
  chunks : sent.chunks = source.chunks
  closing : sent.closing = source.closing.map (·.mapError fun _ => .writeAborted)

/-- The chunks end as they should, but what follows them fails to come. -/
def FailsBehind (b : Body) : Prop :=
  ∃ wait late cause, b.finish = .after wait (.ok ()) ∧ b.trailers = .after late (.error cause)

theorem closing_of_failsBehind (hfails : b.FailsBehind) :
    ∃ wait cause, b.closing = .after wait (.error cause) ∧ b.relayed.closing = .after wait (.ok .empty) := by
  obtain ⟨wait, late, cause, hfinish, htrailers⟩ := hfails
  refine ⟨wait + late, cause, ?_, ?_⟩
  · rw [closing, hfinish, htrailers]
    rfl
  · rw [closing, relayed, hfinish, htrailers]
    rfl

theorem closing_relayed (hfollows : ¬ b.FailsBehind) :
    b.relayed.closing = b.closing.map (·.mapError fun _ => .writeAborted) := by
  obtain ⟨chunks, finish, trailers⟩ := b
  cases finish with
  | never => rfl
  | after wait ended =>
      cases ended with
      | error cause => rfl
      | ok =>
          cases trailers with
          | never => rfl
          | after late following =>
              cases following with
              | error cause => exact absurd ⟨wait, late, cause, rfl, rfl⟩ hfollows
              | ok fields => rfl

theorem conveys_relayed_iff : b.Conveys b.relayed ↔ ¬ b.FailsBehind := by
  constructor
  · rintro ⟨-, hclosing⟩ hfails
    obtain ⟨wait, cause, hgiven, hsent⟩ := closing_of_failsBehind hfails
    rw [hgiven, hsent] at hclosing
    cases hclosing
  · intro hfollows
    exact ⟨rfl, closing_relayed hfollows⟩

/-! ### The signal -/

theorem outcome_pump (b : Body) : b.pump.outcome = (b.ending.map (·.2)).delay b.span := by
  obtain ⟨chunks, finish, trailers⟩ := b
  induction chunks with
  | nil =>
      rw [pump_nil]
      cases ending ⟨[], finish, trailers⟩ with
      | after wait ending => exact (Eventual.delay_zero _).symm
      | never => rfl
  | cons chunk rest ih =>
      obtain ⟨wait, bytes⟩ := chunk
      rw [pump_cons]
      dsimp only [Course.delay]
      rw [ih, Eventual.delay_delay]
      rfl

/-- The signal comes when the stream is over, whatever comes of it. -/
theorem map_ending (b : Body) : b.ending.map (fun _ => ()) = b.closing.map fun _ => () := by
  rw [ending, closing, Eventual.bind_map, Eventual.bind_map]
  congr 1
  funext ended
  cases ended with
  | error cause => rfl
  | ok => exact Eventual.map_map _ _ _

theorem isOver_iff : b.isOver = true ↔ b = ofChunks [] := by
  constructor
  · intro hover
    rw [isOver] at hover
    split at hover
    · next hchunks hfinish htrailers =>
      obtain ⟨chunks, finish, trailers⟩ := b
      subst hchunks hfinish htrailers
      rfl
    · cases hover
  · rintro rfl
    rfl

theorem watch_fst (b : Body) : b.watch.1 = b.relayed := by
  rw [watch]
  split
  · next hover =>
    rw [isOver_iff.mp hover]
    rfl
  · have hpiped := ofPieces_pump b 0
    rwa [Course.delay_zero] at hpiped

/-- **What is sent is what is given if and only if nothing fails behind the chunks.** -/
theorem conveys_watch_iff : b.Conveys b.watch.1 ↔ ¬ b.FailsBehind := by
  rw [watch_fst]
  exact conveys_relayed_iff

/-- The chunks are all there when the stream is reset behind them. What is sent ends as if the stream were whole,
and the signal is given. -/
theorem not_conveys_reset :
    let reset : BodyError := ⟨"http2 error: stream error received: stream no longer needed"⟩
    let body : Body := ⟨[(5, [97])], .now (.ok ()), .now (.error reset)⟩
    body.closing = .now (.error reset) ∧ body.watch = (ofChunks [(5, [97])], .after 5 .given) ∧
      ¬ body.Conveys body.watch.1 := by
  intro reset body
  have hsent : body.watch = (ofChunks [(5, [97])], .after 5 .given) := by rfl
  refine ⟨rfl, hsent, ?_⟩
  rw [hsent]
  rintro ⟨-, hclosing⟩
  cases hclosing

theorem watch_snd (b : Body) : b.watch.2.map (fun _ => ()) = b.written := by
  rw [watch]
  split
  · next hover =>
    rw [isOver_iff.mp hover]
    rfl
  · rw [outcome_pump, written, Eventual.map_delay, Eventual.map_delay, Eventual.map_map, map_ending]

end Body

end SigningProxy
