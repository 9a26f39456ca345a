import GateNetwork.Amplitude
import GateNetwork.Proofs.Answers

/-!
# Questions in any order

Several network states share a store and a bench. Questions fill kept vectors, overwrite the pool
and stage tensors on the way, and between them the pool may be leased and written, and other tensors
may be allocated and released. None of this shows in an answer: in every order each question is
answered as it is by new states over the same networks with a pool that was never used.

The invariant is that every state serves its network, that the store has the tensors of the networks
as it had them in the beginning, and that the pool has its capacity.
-/

namespace GateNetwork

variable {ι α ρ σ τ : Type}

/-! ## Rooms -/

/-- Network states that share a store and a bench. -/
structure Room (ι α σ : Type) where
  states : ι → NetworkState α
  store : Store α
  bench : Bench α σ

/-- A question to one of the states, or to two of them. -/
inductive Question (ι α τ : Type) where
  | amplitude (i : ι) (digits : List Nat)
  | amplitudes (i : ι) (assignments : List (List Nat))
  /-- The overlap of two states. -/
  | overlap (ket bra : ι)
  | norm (i : ι)
  /-- The vector, copied over a buffer. -/
  | copyTo (i : ι) (buffer : Array α)
  /-- The vector, written to a sink. -/
  | dump (i : ι) (line : α → String) (sink : Sink τ) (start : τ)
  | tensor (i : ι) (position : Nat)
  | tensors (i : ι)

/-- What was answered, value or error. -/
inductive Answer (α ρ τ : Type) where
  | amplitude (a : Except Error α)
  | amplitudes (as : Except Error (List α))
  | overlap (r : Except Error ρ)
  | norm (r : Except Error ρ)
  | copied (outcome : Except Error Unit) (last : Array α)
  | dumped (outcome : Except Error Unit) (last : τ)
  | tensor (v : Except Error (TensorView α))
  | tensors (vs : Except Error (List (TensorView α)))

/-- What may happen between questions. -/
inductive Disturbance (α : Type) where
  /-- Cells of the pool are leased, and written as they please. -/
  | lease (bytes : Nat) (write : Array α → Array α)
  | allocate (arena : Nat) (t : Tensor α)
  | release (arena : Nat) (h : Handle)

/-- One event in a room. -/
inductive Event (ι α τ : Type) where
  | ask (q : Question ι α τ)
  | disturb (d : Disturbance α)

/-- The questions among the events. -/
def Event.questions (events : List (Event ι α τ)) : List (Question ι α τ) :=
  events.filterMap fun
    | .ask q => some q
    | .disturb _ => none

/-- No handle of the networks is released. -/
def Event.Spares (nets : ι → Network) : Event ι α τ → Prop
  | .disturb (.release _ h) => ∀ i, ∀ op ∈ (nets i).ops, op.tensor ≠ h
  | _ => True

/-- Leases cells and writes them; a lease that is refused changes nothing. -/
def Scratch.scribble [Zero α] (s : Scratch α) (bytes : Nat) (write : Array α → Array α) :
    Scratch α :=
  match s.lease bytes with
  | .ok (cells, leased) => leased.giveBack (write cells)
  | .error _ => s

/-- Such a lease changes nothing but the memory of the pool. -/
theorem Scratch.scribble_eq [Zero α] (s : Scratch α) (bytes : Nat) (write : Array α → Array α) :
    ∃ memory, s.scribble bytes write = { s with memory := memory } := by
  unfold scribble
  by_cases hfit : bytes ≤ s.capacity
  · obtain ⟨cells, memory, hlease, -⟩ := lease_ok hfit
    rw [hlease]
    exact ⟨_, rfl⟩
  · rw [lease_error (Nat.not_le.1 hfit)]
    exact ⟨s.memory, rfl⟩

namespace Room

def desk (room : Room ι α σ) (i : ι) : Desk α σ := ⟨room.states i, room.bench⟩

/-- The room once a state has left its desk. -/
def leave [DecidableEq ι] (room : Room ι α σ) (i : ι) (desk : Desk α σ) : Room ι α σ :=
  { room with states := Function.update room.states i desk.state, bench := desk.bench }

section

variable [DecidableEq ι] [Magnitude α ρ]

def ask (b : Backend α ρ σ) (room : Room ι α σ) :
    Question ι α τ → Answer α ρ τ × Room ι α σ
  | .amplitude i digits =>
    let act := NetworkState.amplitude b room.store digits
    (.amplitude (act.outcome (room.desk i)), room.leave i (act.final (room.desk i)))
  | .amplitudes i assignments =>
    let act := NetworkState.amplitudes b room.store assignments
    (.amplitudes (act.outcome (room.desk i)), room.leave i (act.final (room.desk i)))
  | .overlap ket bra =>
    let act := (room.states ket).overlap b (room.states bra)
    let site := act.final ⟨room.store, room.bench⟩
    (.overlap (act.outcome ⟨room.store, room.bench⟩),
      { room with store := site.store, bench := site.bench })
  | .norm i =>
    let act := (room.states i).norm b room.store
    (.norm (act.outcome room.bench), { room with bench := act.final room.bench })
  | .copyTo i buffer =>
    let act := (room.states i).copyTo b room.store
    let last := act.final (room.bench, buffer)
    (.copied (act.outcome (room.bench, buffer)) last.2, { room with bench := last.1 })
  | .dump i line sink start =>
    let act := (room.states i).dump b room.store line sink
    let last := act.final (room.bench, start)
    (.dumped (act.outcome (room.bench, start)) last.2, { room with bench := last.1 })
  | .tensor i position => (.tensor ((room.states i).tensor room.store position), room)
  | .tensors i => (.tensors ((room.states i).tensors room.store), room)

end

/-- The room after a disturbance; what is refused changes nothing. -/
def disturb [Zero α] (room : Room ι α σ) : Disturbance α → Room ι α σ
  | .lease bytes write =>
    { room with bench := { room.bench with scratch := room.bench.scratch.scribble bytes write } }
  | .allocate arena t =>
    match room.store.allocate arena t with
    | .ok (_, store) => { room with store := store }
    | .error _ => room
  | .release arena h => { room with store := room.store.release arena h }

/-- Lets events happen one after the other; answers with all that was answered. -/
def run [DecidableEq ι] [Zero α] [Magnitude α ρ] (b : Backend α ρ σ) :
    Room ι α σ → List (Event ι α τ) → List (Answer α ρ τ) × Room ι α σ
  | room, [] => ([], room)
  | room, .ask q :: events =>
    let (a, room) := room.ask b q
    let (as, room) := run b room events
    (a :: as, room)
  | room, .disturb d :: events => run b (room.disturb d) events

/-- New states over networks, with a pool that was never used. -/
def fresh (nets : ι → Network) (settings : ι → Settings) (store : Store α) (capacity : Nat)
    (engine : σ) : Room ι α σ :=
  ⟨fun i => .ofNetwork (nets i) (settings i), store, ⟨.ofBytes capacity, engine⟩⟩

end Room

/-! ## Answers of networks -/

section

variable [Zero α] [One α] [Add α] [Mul α] [Conj α] [Magnitude α ρ] [Zero ρ] [Add ρ]

/-- What a question is answered by the networks. -/
def Question.answer (nets : ι → Network) (store : Store α) (capacity : Nat) :
    Question ι α τ → Answer α ρ τ
  | .amplitude i digits =>
    .amplitude ((nets i).amplitudeAnswer (store.arena (nets i).arena) capacity digits)
  | .amplitudes i assignments =>
    .amplitudes
      (assignments.mapM ((nets i).amplitudeAnswer (store.arena (nets i).arena) capacity))
  | .overlap ket bra =>
    .overlap (((nets ket).overlapAnswer (nets bra) store capacity).map modulus)
  | .norm i => .norm ((nets i).normAnswer (store.arena (nets i).arena) capacity)
  | .copyTo i buffer =>
    let answer := (nets i).copyAnswer (store.arena (nets i).arena) capacity buffer
    .copied answer.1 answer.2
  | .dump i line sink start =>
    let answer := (nets i).dumpAnswer (store.arena (nets i).arena) capacity line sink start
    .dumped answer.1 answer.2
  | .tensor i position =>
    .tensor ((NetworkState.ofNetwork (nets i) .standard).tensor store position)
  | .tensors i => .tensors ((NetworkState.ofNetwork (nets i) .standard).tensors store)

/-- Answers are settled by the stored tensors of the networks. -/
theorem Question.answer_congr {nets : ι → Network} {store store' : Store α}
    (hkept : ∀ i, (nets i).Kept store store') (capacity : Nat) (q : Question ι α τ) :
    (q.answer nets store' capacity : Answer α ρ τ) = q.answer nets store capacity := by
  have hcontracted (i : ι) : (nets i).contracted (store'.arena (nets i).arena) capacity =
      (nets i).contracted (store.arena (nets i).arena) capacity :=
    Network.contracted_congr (hkept i) capacity
  cases q with
  | amplitude i digits => simp only [answer, Network.amplitudeAnswer, hcontracted]
  | amplitudes i assignments =>
    have hone : (nets i).amplitudeAnswer (store'.arena (nets i).arena) capacity =
        (nets i).amplitudeAnswer (store.arena (nets i).arena) capacity := by
      funext digits
      simp only [Network.amplitudeAnswer, hcontracted]
    rw [answer, answer, hone]
  | overlap ket bra =>
    rw [answer, answer, Network.overlapAnswer_congr (hkept ket) (hkept bra)]
  | norm i => rw [answer, answer, Network.normAnswer, Network.normAnswer, hcontracted]
  | copyTo i buffer =>
    simp only [answer, Network.copyAnswer, Network.vectorFor, hcontracted]
  | dump i line sink start =>
    simp only [answer, Network.dumpAnswer, hcontracted]
  | tensor i position =>
    exact congrArg Answer.tensor (NetworkState.tensor_congr rfl rfl (hkept i) position)
  | tensors i => exact congrArg Answer.tensors (NetworkState.tensors_congr rfl rfl (hkept i))

end

/-! ## What events keep -/

namespace Room

/-- The states serve the networks, whose tensors are those of the store in the beginning. -/
structure Settled [Zero α] [One α] [Add α] [Mul α] [Conj α] (nets : ι → Network)
    (store : Store α) (capacity : Nat) (room : Room ι α σ) : Prop where
  serves : ∀ i, (room.states i).Serves (nets i) room.store capacity
  kept : ∀ i, (nets i).Kept store room.store
  capacity : room.bench.scratch.capacity = capacity

variable [Zero α] [One α] [Add α] [Mul α] [Conj α] {nets : ι → Network} {store : Store α}
  {capacity : Nat} {room : Room ι α σ}

/-- A computation of the bench may change the memory of the pool. -/
theorem Settled.atBench (h : Settled nets store capacity room) {β : Type}
    {act : Attempt Error (Bench α σ) β} {r : Except Error β} {memory : Array α}
    (heq : act room.bench = Attempt.ofExcept r (room.bench.withMemory memory)) :
    act.outcome room.bench = r ∧
      Settled nets store capacity { room with bench := act.final room.bench } := by
  rw [Attempt.outcome_of_eq heq, Attempt.final_of_eq heq]
  exact ⟨rfl, h.serves, h.kept, h.capacity⟩

/-- The store may change as long as it keeps the tensors of the networks. -/
theorem Settled.withStore (h : Settled nets store capacity room) {store' : Store α}
    (hkept : ∀ i, (nets i).Kept room.store store') :
    Settled nets store capacity { room with store := store' } := by
  refine ⟨fun i => (h.serves i).keep (hkept i), fun i op hop => ?_, h.capacity⟩
  exact (hkept i op hop).trans (h.kept i op hop)

/-- A computation of one state may keep another vector, as long as the state serves its network. -/
theorem Settled.atDesk [DecidableEq ι] (h : Settled nets store capacity room) {i : ι} {β : Type}
    {act : Attempt Error (Desk α σ) β} {r : Except Error β} {cache : Option (Contracted α)}
    {memory : Array α}
    (heq : act (room.desk i) = Attempt.ofExcept r ((room.desk i).refreshed cache memory))
    (hserves : ((room.desk i).refreshed cache memory).state.Serves (nets i) room.store capacity) :
    act.outcome (room.desk i) = r ∧
      Settled nets store capacity (room.leave i (act.final (room.desk i))) := by
  rw [Attempt.outcome_of_eq heq, Attempt.final_of_eq heq]
  refine ⟨rfl, fun j => ?_, h.kept, h.capacity⟩
  rw [Room.leave]
  by_cases hj : j = i
  · subst hj
    simpa using hserves
  · simpa [Function.update_of_ne hj] using h.serves j

theorem Settled.fits (h : Settled nets store capacity room) (i : ι) :
    (nets i).Fits (room.store.arena (nets i).arena) :=
  (h.serves i).built.fits

/-! ### Questions -/

section

variable [DecidableEq ι] [Magnitude α ρ] [Zero ρ] [Add ρ]

/-- A question is answered as the networks answer it, and keeps the invariant. -/
theorem Settled.ask (h : Settled nets store capacity room) (q : Question ι α τ) :
    (room.ask (Dense.backend : Backend α ρ σ) q).1 = q.answer nets room.store capacity ∧
      Settled nets store capacity (room.ask (Dense.backend : Backend α ρ σ) q).2 := by
  obtain rfl := h.capacity
  cases q with
  | amplitude i digits =>
    obtain ⟨cache, memory, heq, hserves⟩ :=
      NetworkState.amplitude_eq (ρ := ρ) (room.desk i) (h.serves i) digits
    obtain ⟨hanswer, hsettled⟩ := h.atDesk heq hserves
    exact ⟨congrArg Answer.amplitude hanswer, hsettled⟩
  | amplitudes i assignments =>
    obtain ⟨cache, memory, heq, hserves⟩ :=
      NetworkState.amplitudes_eq (ρ := ρ) (room.desk i) (h.serves i) assignments
    obtain ⟨hanswer, hsettled⟩ := h.atDesk heq hserves
    exact ⟨congrArg Answer.amplitudes hanswer, hsettled⟩
  | overlap ket bra =>
    obtain ⟨store', memory, hinner, hget⟩ := NetworkState.inner_eq (ρ := ρ)
      (h.serves ket).network (h.serves bra).network (h.fits ket) (h.fits bra) room.bench
    have heq := Attempt.map_ofExcept hinner (modulus : α → ρ)
    -- The staged copies are gone by now, so the store resolves every handle as before.
    have hstore : Settled nets store room.bench.scratch.capacity { room with store := store' } :=
      h.withStore fun i op _ => hget _ op.tensor
    rw [Room.ask]
    dsimp only
    rw [NetworkState.overlap, Attempt.outcome_of_eq heq, Attempt.final_of_eq heq]
    exact ⟨rfl, hstore.serves, hstore.kept, hstore.capacity⟩
  | norm i =>
    obtain ⟨memory, heq⟩ := NetworkState.norm_eq (ρ := ρ) (h.serves i)
    obtain ⟨hanswer, hsettled⟩ := h.atBench heq
    exact ⟨congrArg Answer.norm hanswer, hsettled⟩
  | copyTo i buffer =>
    obtain ⟨memory, heq⟩ := NetworkState.copyTo_eq (ρ := ρ) (h.serves i) buffer
    rw [Room.ask]
    dsimp only
    rw [Attempt.outcome_of_eq heq, Attempt.final_of_eq heq]
    exact ⟨rfl, h.serves, h.kept, h.capacity⟩
  | dump i line sink start =>
    obtain ⟨memory, heq⟩ := NetworkState.dump_eq (ρ := ρ) (h.serves i) line sink start
    rw [Room.ask]
    dsimp only
    rw [Attempt.outcome_of_eq heq, Attempt.final_of_eq heq]
    exact ⟨rfl, h.serves, h.kept, h.capacity⟩
  | tensor i position =>
    refine ⟨congrArg Answer.tensor ?_, h⟩
    exact NetworkState.tensor_congr rfl (h.serves i).network (fun _ _ => rfl) position
  | tensors i =>
    refine ⟨congrArg Answer.tensors ?_, h⟩
    exact NetworkState.tensors_congr rfl (h.serves i).network fun _ _ => rfl

end

/-! ### Disturbances -/

/-- A disturbance that releases no tensor of the networks keeps the invariant. -/
theorem Settled.disturb (h : Settled nets store capacity room) {d : Disturbance α}
    (hspare : Event.Spares (ι := ι) (τ := τ) nets (.disturb d)) :
    Settled nets store capacity (room.disturb d) := by
  cases d with
  | lease bytes write =>
    obtain ⟨memory, hscribble⟩ := room.bench.scratch.scribble_eq bytes write
    rw [Room.disturb, hscribble]
    exact ⟨h.serves, h.kept, h.capacity⟩
  | allocate arena t =>
    rw [Room.disturb]
    split
    · rename_i heq
      exact h.withStore fun i => (h.fits i).kept_allocate heq
    · exact h
  | release arena handle =>
    refine h.withStore fun i op hop => ?_
    exact Store.get_release room.store arena (hspare i op hop) _

/-! ### Runs -/

variable [DecidableEq ι] [Magnitude α ρ] [Zero ρ] [Add ρ]

/-- Whatever happens in between, each question is answered by the networks over the store of the
beginning. -/
theorem Settled.run (h : Settled nets store capacity room) {events : List (Event ι α τ)}
    (hspare : ∀ e ∈ events, e.Spares nets) :
    (room.run (Dense.backend : Backend α ρ σ) events).1 =
      (Event.questions events).map fun q => q.answer nets store capacity := by
  induction events generalizing room with
  | nil => rfl
  | cons e events ih =>
    have hrest : ∀ e ∈ events, e.Spares nets := fun e he => hspare e (List.mem_cons_of_mem _ he)
    cases e with
    | ask q =>
      obtain ⟨hanswer, hsettled⟩ := h.ask (ρ := ρ) q
      -- The store may be another one by now, but not the tensors that answers depend on.
      rw [Question.answer_congr h.kept] at hanswer
      have htail := ih hsettled hrest
      rw [Room.run]
      dsimp only
      rw [hanswer, htail]
      rfl
    | disturb d => exact ih (h.disturb (hspare _ List.mem_cons_self)) hrest

omit [DecidableEq ι] [Magnitude α ρ] [Zero ρ] [Add ρ] in
theorem Settled.fresh (hnets : ∀ i, (nets i).Built store) (settings : ι → Settings)
    (s : Scratch α) (engine : σ) :
    Settled nets store s.capacity (Room.fresh nets settings store s.capacity engine) :=
  ⟨fun i => .fresh (hnets i) (settings i), fun _ _ _ => rfl, s.capacity_ofBytes⟩

/-- In every interleaving, each question is answered as it is by new states over the same networks
with a pool that was never used. -/
theorem answers_eq_fresh {room : Room ι α σ} {nets : ι → Network}
    (hnets : ∀ i, (room.states i).network = some (nets i))
    (hreached : ∀ i, (room.states i).Reached room.bench.scratch.capacity room.store)
    {events : List (Event ι α τ)} (hspare : ∀ e ∈ events, e.Spares nets)
    (settings : ι → Settings) (engine : σ) :
    (room.run (Dense.backend : Backend α ρ σ) events).1 = (Event.questions events).map fun q =>
      ((fresh nets settings room.store room.bench.scratch.capacity engine).ask
        (Dense.backend : Backend α ρ σ) q).1 := by
  have hserves : ∀ i, (room.states i).Serves (nets i) room.store room.bench.scratch.capacity := by
    intro i
    obtain ⟨net, hs⟩ := (hreached i).serves
    obtain rfl := Option.some.inj (hs.network.symm.trans (hnets i))
    exact hs
  have hroom : Settled nets room.store room.bench.scratch.capacity room :=
    ⟨hserves, fun _ _ _ => rfl, rfl⟩
  have hnew : Settled nets room.store room.bench.scratch.capacity
      (fresh nets settings room.store room.bench.scratch.capacity engine) :=
    .fresh (fun i => (hserves i).built) settings room.bench.scratch engine
  rw [hroom.run hspare]
  exact List.map_congr_left fun q _ => (hnew.ask q).1.symm

/-- The negation and the raising network over a pool with something left in it, between whose
questions the pool is written and tensors come and go. -/
theorem answers_eq_fresh_sample :
    let nets : Bool → Network := fun i => bif i then .raising else .negation
    let unused : Scratch Amplitude := .ofBytes 300
    let pool : Scratch Amplitude := { unused with memory := #[⟨7, -7⟩] }
    let room : Room Bool Amplitude Unit :=
      ⟨fun i => .ofNetwork (nets i) { vectorQubits := 2 }, .sample 1, ⟨pool, ()⟩⟩
    let events : List (Event Bool Amplitude Unit) :=
      [.ask (.amplitude false [1, 1]), .ask (.overlap false true),
        .disturb (.lease 64 fun cells => cells.map fun _ => ⟨3, 4⟩), .ask (.amplitude true [0]),
        .disturb (.allocate 0 Gate.x.matrix), .ask (.norm true), .disturb (.release 0 ⟨0, 1, 0⟩),
        .ask (.tensors false), .ask (.overlap true false)]
    (∀ i, (room.states i).network = some (nets i)) ∧
      (∀ i, (room.states i).Reached room.bench.scratch.capacity room.store) ∧
      (∀ e ∈ events, e.Spares nets) ∧
      (room.run (Dense.backend : Backend Amplitude Float Unit) events).1 =
        (Event.questions events).map fun q =>
          ((fresh nets (fun _ => {}) room.store room.bench.scratch.capacity ()).ask
            (Dense.backend : Backend Amplitude Float Unit) q).1 := by
  intro nets unused pool room events
  have hbuilt : ∀ i, (nets i).Built room.store := by
    intro i
    cases i with
    | false => exact Network.negation_built 1
    | true => exact Network.raising_built 1
  have hnets : ∀ i, (room.states i).network = some (nets i) := fun _ => rfl
  have hreached : ∀ i, (room.states i).Reached room.bench.scratch.capacity room.store :=
    fun i => .fresh (hbuilt i) _
  have hspare : ∀ e ∈ events, e.Spares nets := by
    simp [events, nets, Event.Spares, Network.negation, Network.raising]
  exact ⟨hnets, hreached, hspare, answers_eq_fresh hnets hreached hspare (fun _ => {}) ()⟩

end Room

end GateNetwork
