import InstancePool.Channel.Script

/-!
What a channel has to do with its image, over whole runs and whatever the image answers. Every request
that can be written is dispatched once and its buffer given back once; a closed channel leaves the image
alone.
-/

namespace InstancePool

/-- What can be done to an image. -/
inductive Touch (β : Type) where
  | dispatched (bytes : List UInt8) (status : Status) (buffer : β)
  | released (buffer : β)
  | installed (r : Resolver)
  | finalized (status : Status)

/-- A record of what is done to an image, if all is in order: the buffer of each dispatch is given back
before anything else is done, and nothing follows a finalization. The flag tells whether the image is
still in use. -/
inductive Touch.Orderly {β : Type} : Bool → List (Touch β) → Prop
  | nil : Orderly true []
  | call {ts bytes status buffer} (h : Orderly true ts) :
    Orderly true (ts ++ [dispatched bytes status buffer, released buffer])
  | installed {ts r} (h : Orderly true ts) : Orderly true (ts ++ [installed r])
  | finalized {ts status} (h : Orderly true ts) : Orderly false (ts ++ [finalized status])

/-- An image that does as `image` and keeps a record of what is done to it. -/
def Image.recording {σ β : Type} (image : Image σ β) : Image (σ × List (Touch β)) β where
  dispatch bytes s :=
    let ((status, buffer), peer) := image.dispatch bytes s.1
    ((status, buffer), peer, s.2 ++ [.dispatched bytes status buffer])
  read buffer s := image.read buffer s.1
  release buffer s := (image.release buffer s.1, s.2 ++ [.released buffer])
  install r s := (image.install r s.1, s.2 ++ [.installed r])
  finalize s :=
    let (status, peer) := image.finalize s.1
    (status, peer, s.2 ++ [.finalized status])

namespace Channel

/-- A call on the host's side of a channel. -/
inductive Move where
  | openSession
  | perform (key : SessionKey) (op : Op)
  | closeSession (key : SessionKey)
  | setResolver (r : Resolver)
  | finalize

namespace Move

/-- The request that a call makes, if it makes one. -/
def request : Move → Option Request
  | openSession => some .openSession
  | perform key op => some (.act key op)
  | closeSession key => some (.closeSession key)
  | setResolver _ | finalize => none

/-- What the caller learns of a result. The end of a session and a resolver are not reported on. -/
def reports : Move → Except Error Response → Option (Except Error Response)
  | closeSession _, _ | setResolver _, _ => none
  | openSession, r | perform .., r | finalize, r => some r

variable {σ β : Type}

def run (image : Image σ β) : Move → Channel σ → Option (Except Error Response) × Channel σ
  | openSession, c =>
    let (result, c) := c.openSession image
    (some (result.map .session), c)
  | perform key op, c =>
    let (result, c) := c.perform image key op
    (some result, c)
  | closeSession key, c => (none, c.closeSession image key)
  | setResolver r, c => (none, c.setResolver image r)
  | finalize, c =>
    let (result, c) := c.finalize image
    (some (result.map fun _ => .unit), c)

end Move

variable {σ β : Type}

/-- The channel after some calls. -/
def after (image : Image σ β) (moves : List Move) (c : Channel σ) : Channel σ :=
  moves.foldl (fun c move => (move.run image c).2) c

theorem after_append (image : Image σ β) (earlier later : List Move) (c : Channel σ) :
    after image (earlier ++ later) c = after image later (after image earlier c) :=
  List.foldl_append

/-- What a request comes to, if its dispatch reports `status` and leaves `output`. -/
inductive Concludes (request : Request) (status : Status) (output : List UInt8) :
    Except Error Response → Prop
  | refused (h : status ≠ .ok) : Concludes request status output (.error (.runtime ⟨.protocol,
      "runtime could not answer " ++ request.name ++ " (" ++ status.display ++ ")"⟩))
  | garbled {cause} (h : status = .ok) (hd : Wire.decodeReply output = .error cause) :
    Concludes request status output (.error (.protocol (.decode cause)))
  | fault {f} (h : status = .ok) (hd : Wire.decodeReply output = .ok (.error f)) :
    Concludes request status output (.error (.runtime f))
  | unexpected {r} (h : status = .ok) (hd : Wire.decodeReply output = .ok (.ok r))
      (hr : r.kind ≠ request.answers) :
    Concludes request status output
      (.error (.protocol (.unexpectedResponse request.answers r.kind)))
  | answered {r} (h : status = .ok) (hd : Wire.decodeReply output = .ok (.ok r))
      (hr : r.kind = request.answers) : Concludes request status output (.ok r)

/-- What a call through an open channel comes to: what it reports, what it does to the image, and the
state in which it leaves the image. The output of a dispatch is what is in the buffer before it is given
back. -/
inductive Deals (image : Image σ β) : Move → σ → Option (Except Error Response) →
    List (Touch β) → σ → Prop
  | unwritten {move request cause s} (hm : move.request = some request)
      (hb : Wire.encodeRequest request = .error cause) :
    Deals image move s (move.reports (.error (.protocol (.encode cause)))) [] s
  | sent {move request bytes status buffer result s s'} (hm : move.request = some request)
      (hb : Wire.encodeRequest request = .ok bytes)
      (hd : image.dispatch bytes s = ((status, buffer), s'))
      (hr : Concludes request status (image.read buffer s') result) :
    Deals image move s (move.reports result)
      [.dispatched bytes status buffer, .released buffer] (image.release buffer s')
  | installed {r s} : Deals image (.setResolver r) s none [.installed r] (image.install r s)
  | finalized {s s'} (hf : image.finalize s = (.ok, s')) :
    Deals image .finalize s (some (.ok .unit)) [.finalized .ok] s'
  | unfinished {status s s'} (hf : image.finalize s = (status, s')) (h : status ≠ .ok) :
    Deals image .finalize s
      (some (.error (.teardown ("runtime finalizer returned " ++ status.display))))
      [.finalized status] s'

/-- A response is extracted if it has the form of the answers. -/
theorem concludes_interpret (request : Request) (status : Status) (output : List UInt8) :
    Concludes request status output
      (extract (Response.expect request.answers) (interpret request.name status output)) := by
  by_cases hs : status = .ok
  · have hok : status.isOk = true := decide_eq_true hs
    simp only [interpret, hok, if_true]
    cases hd : Wire.decodeReply output with
    | error cause => exact .garbled hs hd
    | ok reply =>
      cases reply with
      | error f => exact .fault hs hd
      | ok r =>
        by_cases hr : r.kind = request.answers
        · simp only [extract, Response.expect, if_pos hr]
          exact .answered hs hd hr
        · simp only [extract, Response.expect, if_neg hr]
          exact .unexpected hs hd hr
  · have hok : status.isOk = false := decide_eq_false hs
    simp only [interpret, hok, Bool.false_eq_true, if_false]
    exact .refused hs

/-- A key is extracted from the responses that are of its form. -/
theorem extract_toSession (result : Except Error Response) :
    (extract Response.toSession result).map Response.session =
      extract (Response.expect .session) result := by
  cases result with
  | error e => rfl
  | ok r => cases r <;> rfl

theorem call_unwritten (image : Image σ β) {request : Request} {cause : Wire.EncodeError}
    (hb : Wire.encodeRequest request = .error cause) (s : σ) :
    call image request ⟨true, s⟩ = (.error (.protocol (.encode cause)), ⟨true, s⟩) := by
  simp only [call, if_true, hb]

theorem call_sent {image : Image σ β} {request : Request} {bytes : List UInt8} {status : Status}
    {buffer : β} {s s' : σ} (hb : Wire.encodeRequest request = .ok bytes)
    (hd : image.dispatch bytes s = ((status, buffer), s')) :
    call image request ⟨true, s⟩ =
      (interpret request.name status (image.read buffer s'), ⟨true, image.release buffer s'⟩) := by
  simp only [call, if_true, hb, hd]

namespace Move

variable {move : Move} {request : Request}

/-- A call with a request reports what is extracted of the answer to it. -/
theorem run_request (image : Image σ β) (hm : move.request = some request) (c : Channel σ) :
    move.run image c =
      (move.reports (extract (Response.expect request.answers) (c.call image request).1),
        (c.call image request).2) := by
  cases move with
  | openSession =>
    obtain rfl := Option.some.inj hm
    simp only [run, Channel.openSession, extract_toSession]
    rfl
  | perform key op =>
    obtain rfl := Option.some.inj hm
    rfl
  | closeSession key =>
    obtain rfl := Option.some.inj hm
    rfl
  | setResolver r => cases hm
  | finalize => cases hm

theorem run_closed (image : Image σ β) (move : Move) (s : σ) :
    move.run image ⟨false, s⟩ = (move.reports (.error .closed), ⟨false, s⟩) := by
  cases move <;> rfl

/-- Only a finalization closes a channel. -/
theorem live_run (image : Image σ β) (move : Move) (s : σ) :
    (move.run image ⟨true, s⟩).2.live = true ↔ move ≠ .finalize := by
  have hcall (request : Request) : (call image request ⟨true, s⟩).2.live = true := by
    cases hb : Wire.encodeRequest request with
    | error cause => rw [call_unwritten image hb]
    | ok bytes => rw [call_sent hb rfl]
  cases move with
  | openSession => exact iff_of_true (hcall .openSession) nofun
  | perform key op => exact iff_of_true (hcall (.act key op)) nofun
  | closeSession key => exact iff_of_true (hcall (.closeSession key)) nofun
  | setResolver r => exact iff_of_true rfl nofun
  | finalize => exact iff_of_false nofun fun h => h rfl

theorem deals_run (image : Image σ β) (move : Move) (s : σ) :
    ∃ ts, Deals image move s (move.run image ⟨true, s⟩).1 ts (move.run image ⟨true, s⟩).2.peer ∧
      ∀ record, (move.run image.recording ⟨true, s, record⟩).2.peer =
        ((move.run image ⟨true, s⟩).2.peer, record ++ ts) := by
  -- All moves but two make a request, which goes through the buffer of the image.
  cases hm : move.request with
  | some request =>
    simp only [run_request _ hm]
    cases hb : Wire.encodeRequest request with
    | error cause =>
      simp only [call_unwritten _ hb]
      exact ⟨[], .unwritten hm hb, fun record => by rw [List.append_nil]⟩
    | ok bytes =>
      obtain ⟨⟨⟨status, buffer⟩, s'⟩, hd⟩ : ∃ answer, image.dispatch bytes s = answer := ⟨_, rfl⟩
      rw [call_sent hb hd]
      refine ⟨_, .sent hm hb hd (concludes_interpret ..), fun record => ?_⟩
      have hrec : image.recording.dispatch bytes (s, record) =
          ((status, buffer), s', record ++ [.dispatched bytes status buffer]) := by
        simp only [Image.recording, hd]
      rw [call_sent hb hrec]
      simp only [Image.recording, List.append_assoc, List.cons_append, List.nil_append]
  | none =>
    cases move with
    | setResolver r => exact ⟨_, .installed, fun record => rfl⟩
    | finalize =>
      obtain ⟨⟨status, s'⟩, hf⟩ : ∃ answer, image.finalize s = answer := ⟨_, rfl⟩
      refine ⟨[.finalized status], ?_, fun record => ?_⟩
      · by_cases hs : status = .ok
        · subst hs
          simp only [run, Channel.finalize, if_true, hf]
          exact .finalized hf
        · have hok : status.isOk = false := decide_eq_false hs
          simp only [run, Channel.finalize, if_true, hf, hok, Bool.false_eq_true, if_false]
          exact .unfinished hf hs
      · simp only [run, Channel.finalize, if_true, Image.recording, hf]
    | _ => cases hm

end Move

theorem Deals.orderly {image : Image σ β} {move : Move} {s s' : σ}
    {outcome : Option (Except Error Response)} {record ts : List (Touch β)} {live : Bool}
    (hd : Deals image move s outcome ts s') (hl : live = true ↔ move ≠ .finalize)
    (ho : Touch.Orderly true record) : Touch.Orderly live (record ++ ts) := by
  have hopen (hm : move ≠ .finalize) : live = true := hl.2 hm
  have hclosed (hm : move = .finalize) : live = false := Bool.eq_false_iff.2 fun h => hl.1 h hm
  cases hd with
  | unwritten hm hb =>
    rw [hopen (by rintro rfl; cases hm), List.append_nil]
    exact ho
  | sent hm hb hd hr =>
    rw [hopen (by rintro rfl; cases hm)]
    exact .call ho
  | installed =>
    rw [hopen nofun]
    exact .installed ho
  | finalized hf =>
    rw [hclosed rfl]
    exact .finalized ho
  | unfinished hf h =>
    rw [hclosed rfl]
    exact .finalized ho

/-- A record that is in order stays so by a call, and only a finalization closes the channel. -/
theorem run_orderly (image : Image σ β) (move : Move) {c : Channel σ} {record : List (Touch β)}
    (ho : Touch.Orderly c.live record) :
    let c' := (move.run image c).2
    ∃ record', (move.run image.recording ⟨c.live, c.peer, record⟩).2 = ⟨c'.live, c'.peer, record'⟩ ∧
      Touch.Orderly c'.live record' ∧ (c'.live = true ↔ c.live = true ∧ move ≠ .finalize) := by
  obtain ⟨live, peer⟩ := c
  cases live with
  | false =>
    simp only [Move.run_closed]
    exact ⟨record, rfl, ho, iff_of_false nofun fun h => nomatch h.1⟩
  | true =>
    obtain ⟨ts, hd, hpeer⟩ := Move.deals_run image move peer
    have hlive := Move.live_run image move peer
    refine ⟨record ++ ts, ?_, hd.orderly hlive ho, hlive.trans (and_iff_right rfl).symm⟩
    have hsame : (move.run image.recording ⟨true, peer, record⟩).2.live =
        (move.run image ⟨true, peer⟩).2.live :=
      Bool.eq_iff_iff.2 ((Move.live_run image.recording move (peer, record)).trans hlive.symm)
    rw [← hsame, ← hpeer record]

theorem after_orderly (image : Image σ β) (moves : List Move) {c : Channel σ}
    {record : List (Touch β)} (ho : Touch.Orderly c.live record) :
    let c' := after image moves c
    ∃ record', after image.recording moves ⟨c.live, c.peer, record⟩ = ⟨c'.live, c'.peer, record'⟩ ∧
      Touch.Orderly c'.live record' ∧
      (c'.live = true ↔ c.live = true ∧ Move.finalize ∉ moves) := by
  induction moves generalizing c record with
  | nil => exact ⟨record, rfl, ho, (and_iff_left List.not_mem_nil).symm⟩
  | cons move moves ih =>
    obtain ⟨record₁, hrec₁, ho₁, hl₁⟩ := run_orderly image move ho
    obtain ⟨record', hrec', ho', hl'⟩ := ih ho₁
    refine ⟨record', ?_, ho', ?_⟩
    · rw [← hrec₁] at hrec'
      exact hrec'
    · refine hl'.trans ?_
      rw [hl₁, and_assoc, List.mem_cons, not_or, ne_comm]

/-- For every image and every run of a channel to it: the record of what was done to the image is in
order. When the channel was finalized, however that went, every further call comes to nothing and leaves
the image alone; before, each call does to the image and reports what `Deals` says, which depends on the
image's own answer alone. -/
theorem deals_after (image : Image σ β) (s : σ) (moves : List Move) (move : Move) :
    let c := after image moves ⟨true, s⟩
    let c' := (move.run image c).2
    let outcome := (move.run image c).1
    let record (moves : List Move) := (after image.recording moves ⟨true, s, []⟩).peer.2
    Touch.Orderly c.live (record moves) ∧
    (Move.finalize ∈ moves →
      outcome = move.reports (.error .closed) ∧ c' = c ∧ record (moves ++ [move]) = record moves) ∧
    (Move.finalize ∉ moves → ∃ ts, Deals image move c.peer outcome ts c'.peer ∧
      record (moves ++ [move]) = record moves ++ ts ∧ (c'.live = true ↔ move ≠ .finalize)) := by
  intro c c' outcome record
  obtain ⟨history, hrec, ho, hl⟩ := after_orderly image moves (c := ⟨true, s⟩) Touch.Orderly.nil
  have hrecord : record moves = history := congrArg (fun c => c.peer.2) hrec
  have hnext : record (moves ++ [move]) =
      (move.run image.recording ⟨c.live, c.peer, history⟩).2.peer.2 := by
    simp only [record, after_append, hrec]
    rfl
  rw [hrecord, hnext]
  -- The channel is live as long as no move was to finalize it.
  refine ⟨ho, fun hm => ?_, fun hm => ?_⟩
  · have hlive : c.live = false := Bool.eq_false_iff.2 fun h => (hl.1 h).2 hm
    have hc : c = ⟨false, c.peer⟩ := by rw [← hlive]
    have hrun : move.run image c = (move.reports (.error .closed), c) := by
      rw [hc]
      exact Move.run_closed image move c.peer
    refine ⟨congrArg Prod.fst hrun, congrArg Prod.snd hrun, ?_⟩
    rw [hlive, Move.run_closed]
  · have hlive : c.live = true := hl.2 ⟨rfl, hm⟩
    have hc : c = ⟨true, c.peer⟩ := by rw [← hlive]
    obtain ⟨ts, hd, hpeer⟩ := Move.deals_run image move c.peer
    refine ⟨ts, ?_, ?_, ?_⟩
    · rw [← hc] at hd
      exact hd
    · rw [hlive, hpeer history]
    · have := Move.live_run image move c.peer
      rw [← hc] at this
      exact this

end Channel

/-- An image with every kind of answer: a refusal with output, bytes that are no reply, a fault, a
response of another form, and a session. It cannot be finalized well. -/
def Script.unruly : Script where
  answers := [⟨⟨7⟩, [0, 0]⟩, ⟨.ok, [9]⟩, ⟨.ok, [1, 2, 1, 120]⟩, ⟨.ok, [0, 0]⟩, ⟨.ok, [0, 1, 5]⟩]
  finalStatus := ⟨9⟩

/-- The fifth call to the unruly image opens a session, and after the failed finalization there is none
any more. -/
theorem Channel.deals_after_unruly :
    let calls : List Move := [.openSession, .openSession, .openSession, .openSession]
    let c := after Script.image calls ⟨true, Script.unruly⟩
    let ended := after Script.image (calls ++ [.finalize]) ⟨true, Script.unruly⟩
    Move.finalize ∉ calls ∧ Move.finalize ∈ calls ++ [.finalize] ∧
      (∃ ts, Deals Script.image .openSession c.peer (some (.ok (.session ⟨5⟩))) ts
        (Move.openSession.run Script.image c).2.peer) ∧
      (Move.openSession.run Script.image ended).1 = some (.error .closed) := by
  intro calls c ended
  have hc : Move.finalize ∉ calls := by
    simp only [calls, List.mem_cons, List.not_mem_nil, or_false, reduceCtorEq, not_false_eq_true]
  have he : Move.finalize ∈ calls ++ [.finalize] := List.mem_append_right _ List.mem_cons_self
  have hanswer : (Move.openSession.run Script.image c).1 = some (.ok (.session ⟨5⟩)) := rfl
  obtain ⟨-, -, hlive⟩ := deals_after Script.image Script.unruly calls .openSession
  obtain ⟨-, hclosed, -⟩ := deals_after Script.image Script.unruly (calls ++ [.finalize]) .openSession
  obtain ⟨ts, hd, -⟩ := hlive hc
  exact ⟨hc, he, ⟨ts, hanswer ▸ hd⟩, (hclosed he).1⟩

end InstancePool
