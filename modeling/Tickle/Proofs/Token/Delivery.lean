import Tickle.Proofs.Token.NextLine
import Tickle.Token.Relay

/-! # Tokens that go through a queue

Whatever turns producer and consumer take, the consumer receives the tokens of the script in their
order and then its end again and again. What carries this is that nothing is lost on the way: what
was sent, the token that the producer holds and what its scanner has still to read are together the
tokens of the script, and what was sent is what was received and what stands in the queue.

The end of the text is the only token of its kind, and it is the last. So a consumer that has not
received it finds a token in the queue or has a producer that has not stopped, and as long as the
queue is empty nothing keeps the producer from putting a token into it. -/

namespace Tickle.Token

namespace Script

/-- The tokens from where a scanner stands are the next one and, unless that is the end, those
behind it. -/
theorem tokensFrom_eq (s : Scanner Mode) : tokensFrom s = (nextToken s).1 ::
    if (nextToken s).1.kind = .endOfText then [] else tokensFrom (nextToken s).2 := by
  rw [tokensFrom]
  split
  · rename_i h
    rw [nextToken, h]
    rfl
  · rename_i t s' h
    rw [nextToken, h, Option.getD_some, if_neg (kind_of_next? h)]

/-- The end of the text stands once among the tokens, behind all others. -/
theorem exists_tokensFrom_eq (s : Scanner Mode) :
    ∃ front, tokensFrom s = front ++ [s.endToken] ∧ ∀ t ∈ front, t.kind ≠ .endOfText := by
  fun_induction tokensFrom s with
  | case1 s h => exact ⟨[], rfl, nofun⟩
  | case2 s t s' h ih =>
    obtain ⟨front, hfront, hkinds⟩ := ih
    refine ⟨t :: front, ?_, List.forall_mem_cons.2 ⟨kind_of_next? h, hkinds⟩⟩
    rw [hfront, Scanner.endToken, Scanner.endToken, (next?_forward h).1]
    rfl

end Script

/-- What stands in front of and behind the only end of a text. -/
theorem eq_of_append_end {front before after : List Token} {e t : Token}
    (hfront : ∀ u ∈ front, u.kind ≠ .endOfText) (ht : t.kind = .endOfText)
    (h : before ++ t :: after = front ++ [e]) :
    before = front ∧ t = e ∧ after = [] := by
  rcases List.append_eq_append_iff.1 h with ⟨more, hmore, hrest⟩ | ⟨more, hmore, hrest⟩
  · cases more with
    | nil =>
      obtain ⟨rfl, rfl⟩ := List.cons.inj hrest
      exact ⟨by simpa using hmore.symm, rfl, rfl⟩
    | cons u more =>
      obtain ⟨rfl, -⟩ := List.cons.inj hrest
      exact absurd ht (hfront t (by rw [hmore]; simp))
  · cases more with
    | nil =>
      obtain ⟨rfl, rfl⟩ := List.cons.inj hrest
      exact ⟨by simpa using hmore, rfl, rfl⟩
    | cons u more => simp at hrest

namespace Relay

/-! ## What a turn can do -/

/-- The turns as rules: when each can be taken, and what it changes. -/
inductive Moves (capacity : Int) (relay : Relay) : Turn → Relay → Prop
  | scan {scanner : Scanner Script.Mode} : relay.producer = .scanning scanner →
    Moves capacity relay .scan { relay with
      producer := .holding (Script.nextToken scanner).1 (Script.nextToken scanner).2 }
  | put {token : Token} {scanner : Scanner Script.Mode} :
    relay.producer = .holding token scanner → hasRoom capacity relay.queue = true →
    Moves capacity relay .put (relay.put token scanner)
  | ask : relay.consumer = .parsing → Moves capacity relay .ask { relay with consumer := .asking }
  | receive {next : Relay} : relay.consumer = .asking → relay.receive? = some next →
    Moves capacity relay .receive { next with consumer := .parsing }
  | close : relay.consumer = .parsing →
    Moves capacity relay .close { relay with consumer := .draining }
  | drop {next : Relay} : relay.consumer = .draining → relay.ended = none →
    relay.receive? = some next → Moves capacity relay .drain next
  | drained {token : Token} : relay.consumer = .draining → relay.ended = some token →
    Moves capacity relay .drain { relay with consumer := .joining }
  | join : relay.consumer = .joining → relay.producer = .stopped →
    Moves capacity relay .join { relay with consumer := .closed }

variable {capacity : Int} {text : String} {relay next later : Relay} {turn : Turn}
  {turns : List Turn}

theorem moves_of_step? (h : relay.step? capacity turn = some next) :
    Moves capacity relay turn next := by
  cases turn with
  | scan =>
    simp only [step?] at h
    split at h
    · cases h
      exact .scan ‹_›
    · cases h
  | put =>
    simp only [step?] at h
    split at h
    · split at h
      · cases h
        exact .put ‹_› ‹_›
      · cases h
    · cases h
  | ask =>
    simp only [step?] at h
    split at h
    · cases h
      exact .ask ‹_›
    · cases h
  | receive =>
    simp only [step?] at h
    split at h
    · obtain ⟨received, hreceived, rfl⟩ := Option.map_eq_some_iff.1 h
      exact .receive ‹_› hreceived
    · cases h
  | close =>
    simp only [step?] at h
    split at h
    · cases h
      exact .close ‹_›
    · cases h
  | drain =>
    simp only [step?] at h
    split at h
    · exact .drop ‹_› ‹_› h
    · cases h
      exact .drained ‹_› ‹_›
    · cases h
  | join =>
    simp only [step?] at h
    split at h
    · cases h
      exact .join ‹_› ‹_›
    · cases h

theorem Moves.step?_eq (h : Moves capacity relay turn next) :
    relay.step? capacity turn = some next := by
  cases h with
  | scan hp => simp only [step?, hp]
  | put hp hroom => simp only [step?, hp, hroom, if_true]
  | ask hc => simp only [step?, hc]
  | receive hc hreceive => simp only [step?, hc, hreceive, Option.map_some]
  | close hc => simp only [step?, hc]
  | drop hc he hreceive => simp only [step?, hc, he, hreceive]
  | drained hc he => simp only [step?, hc, he]
  | join hc hp => simp only [step?, hc, hp]

/-- What every turn preserves holds after any number of turns. -/
theorem of_run? {P : Relay → Prop}
    (hstep : ∀ {relay next : Relay} {turn : Turn},
      Moves capacity relay turn next → P relay → P next)
    (h : relay.run? capacity turns = some later) (hP : P relay) : P later := by
  induction turns generalizing relay with
  | nil =>
    cases h
    exact hP
  | cons turn turns ih =>
    obtain ⟨next, hnext, hrest⟩ := Option.bind_eq_some_iff.1 h
    exact ih hrest (hstep (moves_of_step? hnext) hP)

/-- What receiving a token changes: the end of the text stays where it is, another token leaves the
queue. -/
theorem receive?_cases (h : relay.receive? = some next) :
    (∃ token, relay.ended = some token ∧
      next = { relay with received := relay.received ++ [token] }) ∨
    ∃ token queue, relay.ended = none ∧ relay.queue = token :: queue ∧
      next = { relay with
        queue
        ended := if token.kind = .endOfText then some token else none
        received := relay.received ++ [token] } := by
  unfold receive? at h
  split at h
  · rename_i token he
    cases h
    exact .inl ⟨token, he, rfl⟩
  · cases h
  · rename_i token queue he hq
    cases h
    exact .inr ⟨token, queue, he, hq, rfl⟩

/-! ## Nothing is lost -/

/-- Tokens that the producer has still to put into the queue. -/
def Producer.upcoming : Producer → List Token
  | .scanning scanner => Script.tokensFrom scanner
  | .holding token scanner =>
    token :: if token.kind = .endOfText then [] else Script.tokensFrom scanner
  | .stopped => []

theorem Producer.eq_stopped {producer : Producer} (h : producer.upcoming = []) :
    producer = .stopped := by
  cases producer with
  | scanning scanner =>
    rw [upcoming, Script.tokensFrom_eq] at h
    cases h
  | holding => cases h
  | stopped => rfl

/-- The end of a text as a token. -/
def endOf (text : String) : Token := (Scanner.start text.toList Script.Mode.initial).endToken

/-- What holds between any two turns. -/
structure Faithful (capacity : Int) (text : String) (relay : Relay) : Prop where
  supply : relay.sent ++ relay.producer.upcoming = Script.tokens text
  pending : relay.ended = none →
    relay.sent = relay.received ++ relay.queue ∧ ∀ t ∈ relay.received, t.kind ≠ .endOfText
  finished : ∀ token, relay.ended = some token → token = endOf text ∧ relay.queue = [] ∧
    relay.producer = .stopped ∧ ∃ n, relay.received = Script.tokens text ++ .replicate n token
  room : 0 < capacity → relay.queue.length ≤ capacity
  joined : relay.consumer = .joining ∨ relay.consumer = .closed → relay.ended ≠ none

theorem faithful_start : Faithful capacity text (start text) where
  supply := rfl
  pending := fun _ => ⟨rfl, nofun⟩
  finished := nofun
  room := fun h => Int.le_of_lt h
  joined := nofun

/-- A consumer may do anything else unless it stops waiting for the end of the text. -/
theorem Faithful.withConsumer (h : Faithful capacity text relay) {consumer : Consumer}
    (hjoined : consumer = .joining ∨ consumer = .closed → relay.ended ≠ none) :
    Faithful capacity text { relay with consumer } :=
  ⟨h.supply, h.pending, h.finished, h.room, hjoined⟩

theorem Faithful.scan (h : Faithful capacity text relay) {scanner : Scanner Script.Mode}
    (hp : relay.producer = .scanning scanner) :
    Faithful capacity text { relay with
      producer := .holding (Script.nextToken scanner).1 (Script.nextToken scanner).2 } where
  supply := by
    have hsupply := h.supply
    rw [hp, Producer.upcoming, Script.tokensFrom_eq] at hsupply
    exact hsupply
  pending := h.pending
  finished := fun token he => by
    obtain ⟨-, -, hstopped, -⟩ := h.finished token he
    cases hp.symm.trans hstopped
  room := h.room
  joined := h.joined

theorem Faithful.put (h : Faithful capacity text relay) {token : Token}
    {scanner : Scanner Script.Mode} (hp : relay.producer = .holding token scanner)
    (hroom : hasRoom capacity relay.queue = true) :
    Faithful capacity text (relay.put token scanner) where
  supply := by
    have hsupply := h.supply
    rw [hp] at hsupply
    simp only [Relay.put, List.append_assoc]
    rw [← hsupply]
    by_cases hk : token.kind = .endOfText
    · simp [Producer.upcoming, hk]
    · simp [Producer.upcoming, hk]
  pending := fun he => by
    obtain ⟨hsent, hkinds⟩ := h.pending he
    exact ⟨by simp only [Relay.put, hsent, List.append_assoc], hkinds⟩
  finished := fun token he => by
    obtain ⟨-, -, hstopped, -⟩ := h.finished token he
    cases hp.symm.trans hstopped
  room := fun hpos => by
    have hlt : (relay.queue.length : Int) < capacity := by
      simpa [hasRoom, Int.not_le.2 hpos] using hroom
    simp only [Relay.put, List.length_append, List.length_singleton]
    omega
  joined := h.joined

/-- The end of the text leaves nothing behind it in the queue or with the producer. -/
theorem Faithful.receive (h : Faithful capacity text relay) (hnext : relay.receive? = some next) :
    Faithful capacity text next := by
  rcases receive?_cases hnext with ⟨token, he, rfl⟩ | ⟨token, queue, he, hq, rfl⟩
  · obtain ⟨htoken, hqueue, hstopped, n, hn⟩ := h.finished token he
    refine ⟨h.supply, fun hnone => ?_, fun token' he' => ?_, h.room, h.joined⟩
    · cases he.symm.trans hnone
    · cases he.symm.trans he'
      exact ⟨htoken, hqueue, hstopped, n + 1, by simp [hn, List.replicate_succ']⟩
  · obtain ⟨hsent, hkinds⟩ := h.pending he
    have hroom : 0 < capacity → (queue.length : Int) ≤ capacity := fun hpos => by
      have hle := h.room hpos
      rw [hq, List.length_cons] at hle
      omega
    by_cases hk : token.kind = .endOfText
    · obtain ⟨front, hfront, hfrontKinds⟩ :=
        Script.exists_tokensFrom_eq (.start text.toList .initial)
      have hsupply := h.supply
      rw [hsent, hq, List.append_assoc, List.cons_append] at hsupply
      obtain ⟨hreceived, htoken, hrest⟩ := eq_of_append_end hfrontKinds hk (hsupply.trans hfront)
      obtain ⟨hqueue, hupcoming⟩ := List.append_eq_nil_iff.1 hrest
      refine ⟨h.supply, ?_, fun token' he' => ?_, hroom, fun hc => ?_⟩
      · simp [hk]
      · have heq : token = token' := by simpa [hk] using he'
        subst heq
        refine ⟨htoken, hqueue, Producer.eq_stopped hupcoming, 0, ?_⟩
        rw [hreceived, htoken, List.replicate_zero, List.append_nil]
        exact hfront.symm
      · simp [hk]
    · refine ⟨h.supply, fun _ => ⟨?_, ?_⟩, fun token' he' => ?_, hroom, fun hc => ?_⟩
      · rw [hsent, hq]
        simp
      · simpa [or_imp, forall_and, hk] using hkinds
      · simp [hk] at he'
      · exact absurd he (h.joined hc)

theorem Faithful.moves (hmove : Moves capacity relay turn next) (h : Faithful capacity text relay) :
    Faithful capacity text next := by
  cases hmove with
  | scan hp => exact h.scan hp
  | put hp hroom => exact h.put hp hroom
  | ask => exact h.withConsumer (by simp)
  | receive _ hreceive => exact (h.receive hreceive).withConsumer (by simp)
  | close => exact h.withConsumer (by simp)
  | drop _ _ hreceive => exact h.receive hreceive
  | drained _ he => exact h.withConsumer (by simp [he])
  | join hc => exact h.withConsumer fun _ => h.joined (.inl hc)

/-! ## What follows from it -/

/-- The consumer receives the tokens of the script and then its end. -/
theorem Faithful.received_prefix (h : Faithful capacity text relay) :
    ∃ n, relay.received <+: Script.tokens text ++ .replicate n (endOf text) := by
  cases he : relay.ended with
  | none =>
    obtain ⟨hsent, -⟩ := h.pending he
    refine ⟨0, relay.queue ++ relay.producer.upcoming, ?_⟩
    rw [List.replicate_zero, List.append_nil, ← h.supply, hsent, List.append_assoc]
  | some token =>
    obtain ⟨rfl, -, -, n, hn⟩ := h.finished token he
    exact ⟨n, [], by rw [hn, List.append_nil]⟩

/-- The end of the text has been sent exactly if the producer has stopped. -/
theorem Faithful.countP_sent (h : Faithful capacity text relay) :
    relay.sent.countP (·.kind = .endOfText) = if relay.producer = .stopped then 1 else 0 := by
  obtain ⟨front, hfront, hkinds⟩ := Script.exists_tokensFrom_eq (.start text.toList .initial)
  have hnone : front.countP (·.kind = .endOfText) = 0 := by
    rw [List.countP_eq_zero]
    simpa using hkinds
  have hsupply : relay.sent ++ relay.producer.upcoming = front ++ [endOf text] :=
    h.supply.trans hfront
  by_cases hstopped : relay.producer = .stopped
  · rw [if_pos hstopped]
    rw [hstopped, Producer.upcoming, List.append_nil] at hsupply
    rw [hsupply, List.countP_append, hnone]
    rfl
  · rw [if_neg hstopped]
    obtain ⟨more, last, hmore⟩ : ∃ more last, relay.producer.upcoming = more ++ [last] := by
      have hne : relay.producer.upcoming ≠ [] := fun hnil => hstopped (Producer.eq_stopped hnil)
      exact ⟨_, _, (List.dropLast_append_getLast hne).symm⟩
    rw [hmore, ← List.append_assoc] at hsupply
    have hsent : relay.sent ++ more = front := (List.append_inj' hsupply rfl).1
    rw [← hsent, List.countP_append] at hnone
    omega

/-- A consumer that waits has something to receive, or the producer can take a turn. -/
theorem Faithful.exists_step? (h : Faithful capacity text relay)
    (hwaits : relay.consumer.waits = true) :
    ∃ turn next, relay.step? capacity turn = some next := by
  have hproducer : relay.queue = [] → relay.producer ≠ .stopped →
      ∃ turn next, relay.step? capacity turn = some next := by
    intro hq hstopped
    cases hp : relay.producer with
    | scanning scanner => exact ⟨.scan, _, (Moves.scan hp).step?_eq⟩
    | holding token scanner =>
      have hroom : hasRoom capacity relay.queue = true := by
        by_cases hpos : 0 < capacity
        · simp [hasRoom, hq, hpos]
        · simp [hasRoom, Int.not_lt.1 hpos]
      exact ⟨.put, _, (Moves.put hp hroom).step?_eq⟩
    | stopped => exact absurd hp hstopped
  -- a stopped producer has sent the end, which is then in the queue if it was not received
  have hunended : relay.ended = none → relay.queue = [] → relay.producer ≠ .stopped := by
    intro he hq hstopped
    obtain ⟨hsent, hkinds⟩ := h.pending he
    have hcount := h.countP_sent
    rw [if_pos hstopped, hsent, hq, List.append_nil, List.countP_eq_zero.2 (by simpa using hkinds)]
      at hcount
    cases hcount
  have hreceive : relay.ended = none → relay.queue ≠ [] → ∃ next, relay.receive? = some next := by
    intro he hq
    obtain ⟨token, queue, hcons⟩ := List.exists_cons_of_ne_nil hq
    unfold receive?
    rw [he, hcons]
    exact ⟨_, rfl⟩
  cases hc : relay.consumer with
  | parsing | closed =>
    rw [hc] at hwaits
    cases hwaits
  | asking =>
    cases he : relay.ended with
    | some token =>
      have hagain : relay.receive? = some { relay with received := relay.received ++ [token] } := by
        simp only [receive?, he]
      exact ⟨.receive, _, (Moves.receive hc hagain).step?_eq⟩
    | none =>
      by_cases hq : relay.queue = []
      · exact hproducer hq (hunended he hq)
      · obtain ⟨next, hnext⟩ := hreceive he hq
        exact ⟨.receive, _, (Moves.receive hc hnext).step?_eq⟩
  | draining =>
    cases he : relay.ended with
    | some token => exact ⟨.drain, _, (Moves.drained hc he).step?_eq⟩
    | none =>
      by_cases hq : relay.queue = []
      · exact hproducer hq (hunended he hq)
      · obtain ⟨next, hnext⟩ := hreceive he hq
        exact ⟨.drain, _, (Moves.drop hc he hnext).step?_eq⟩
  | joining =>
    cases he : relay.ended with
    | none => exact absurd he (h.joined (.inl hc))
    | some token =>
      obtain ⟨-, -, hstopped, -⟩ := h.finished token he
      exact ⟨.join, _, (Moves.join hc hstopped).step?_eq⟩

/-- A producer that has stopped sends nothing more. -/
theorem Moves.stopped (hmove : Moves capacity relay turn next) (h : relay.producer = .stopped) :
    next.producer = .stopped ∧ next.sent = relay.sent := by
  have hreceive : ∀ {next}, relay.receive? = some next →
      next.producer = .stopped ∧ next.sent = relay.sent := by
    intro next hnext
    rcases receive?_cases hnext with ⟨token, -, rfl⟩ | ⟨token, queue, -, -, rfl⟩ <;> exact ⟨h, rfl⟩
  cases hmove with
  | scan hp => cases hp.symm.trans h
  | put hp => cases hp.symm.trans h
  | ask | close | drained | join => exact ⟨h, rfl⟩
  | receive _ hnext =>
    obtain ⟨hstopped, hsent⟩ := hreceive hnext
    exact ⟨hstopped, hsent⟩
  | drop _ _ hnext => exact hreceive hnext

theorem sent_of_stopped (h : relay.producer = .stopped)
    (hrun : relay.run? capacity turns = some later) :
    later.producer = .stopped ∧ later.sent = relay.sent := by
  refine of_run? (P := fun r => r.producer = .stopped ∧ r.sent = relay.sent) ?_ hrun ⟨h, rfl⟩
  rintro current next turn hmove ⟨hstopped, hsent⟩
  obtain ⟨hstopped', hsent'⟩ := hmove.stopped hstopped
  exact ⟨hstopped', hsent'.trans hsent⟩

/-! ## Closing comes to an end -/

/-- Turns that the producer can still take: two for every token. -/
def Producer.turnsLeft : Producer → Nat
  | .scanning scanner => 2 * (Script.tokensFrom scanner).length
  | .holding token scanner => 2 * (holding token scanner).upcoming.length - 1
  | .stopped => 0

/-- A bound on the turns that can be taken once the consumer parses no more. A token that is put
into the queue costs another turn to take it out, so the turns of the producer count twice. -/
def turnsLeft (relay : Relay) : Nat :=
  2 * relay.producer.turnsLeft + relay.queue.length +
    match relay.consumer with
    | .joining => 1
    | .closed => 0
    | _ => 2

theorem Moves.turnsLeft_lt (hmove : Moves capacity relay turn next)
    (h : relay.consumer.closing = true) :
    next.turnsLeft < relay.turnsLeft ∧ next.consumer.closing = true := by
  cases hmove with
  | @scan scanner hp =>
    have hleft : 2 * (Script.tokensFrom scanner).length =
        2 * (Producer.holding (Script.nextToken scanner).1
          (Script.nextToken scanner).2).upcoming.length := by
      rw [Script.tokensFrom_eq]
      rfl
    have hpos : 0 < (Script.tokensFrom scanner).length := by
      rw [Script.tokensFrom_eq]
      exact Nat.zero_lt_succ _
    refine ⟨?_, h⟩
    simp only [turnsLeft, hp, Producer.turnsLeft, ← hleft]
    omega
  | @put token scanner hp _ =>
    refine ⟨?_, h⟩
    simp only [turnsLeft, Relay.put, hp, Producer.turnsLeft, Producer.upcoming, List.length_append,
      List.length_cons, List.length_nil]
    by_cases hk : token.kind = .endOfText
    · simp only [hk, if_true, List.length_nil]
      omega
    · simp only [hk, if_false]
      omega
  | ask hc | close hc | receive hc =>
    rw [hc] at h
    cases h
  | drop hc he hnext =>
    rcases receive?_cases hnext with ⟨token, he', -⟩ | ⟨token, queue, -, hq, rfl⟩
    · cases he.symm.trans he'
    · refine ⟨?_, h⟩
      simp only [turnsLeft, hq, List.length_cons]
      omega
  | drained hc =>
    refine ⟨?_, rfl⟩
    simp only [turnsLeft, hc]
    omega
  | join hc =>
    refine ⟨?_, rfl⟩
    simp only [turnsLeft, hc]
    omega

theorem length_le_turnsLeft (h : relay.consumer.closing = true)
    (hrun : relay.run? capacity turns = some later) : turns.length ≤ relay.turnsLeft := by
  induction turns generalizing relay with
  | nil => exact Nat.zero_le _
  | cons turn turns ih =>
    obtain ⟨next, hnext, hrest⟩ := Option.bind_eq_some_iff.1 hrun
    obtain ⟨hlt, hclosing⟩ := (moves_of_step? hnext).turnsLeft_lt h
    exact Nat.succ_le_of_lt (Nat.lt_of_le_of_lt (ih hclosing hrest) hlt)

/-- For every script, capacity and order of turns: the consumer receives the tokens of the script
and then its end, again and again; the queue keeps to its capacity; the producer sends the tokens in
order, the end once, and nothing after it; and whenever the consumer waits, for a token to parse, to
drop one or for the producer, somebody can take a turn. A consumer that has stopped parsing is done
after a bounded number of turns. -/
theorem run?_delivers (capacity : Int) (text : String) (turns : List Turn) (relay : Relay)
    (h : (start text).run? capacity turns = some relay) :
    (∃ n, relay.received <+: Script.tokens text ++ .replicate n (endOf text)) ∧
    (0 < capacity → relay.queue.length ≤ capacity) ∧
    relay.sent <+: Script.tokens text ∧
    relay.sent.countP (·.kind = .endOfText) = (if relay.producer = .stopped then 1 else 0) ∧
    (relay.producer = .stopped → ∀ more later, relay.run? capacity more = some later →
      later.producer = .stopped ∧ later.sent = relay.sent) ∧
    (relay.consumer.waits = true → ∃ turn next, relay.step? capacity turn = some next) ∧
    (relay.consumer.closing = true → ∃ bound, ∀ more later,
      relay.run? capacity more = some later → more.length ≤ bound) := by
  have hfaithful : Faithful capacity text relay := of_run? Faithful.moves h faithful_start
  refine ⟨hfaithful.received_prefix, hfaithful.room, ⟨_, hfaithful.supply⟩, hfaithful.countP_sent,
    ?_, hfaithful.exists_step?, ?_⟩
  · exact fun hstopped more later hrun => sent_of_stopped hstopped hrun
  · intro hclosing
    exact ⟨relay.turnsLeft, fun more later hrun => length_le_turnsLeft hclosing hrun⟩

/-- The consumer stops parsing after the first token while the producer holds the second one: it
waits in front of an empty queue, and the producer can go on. -/
theorem run?_delivers_abandoned :
    let turns := [Turn.scan, .put, .scan, .ask, .receive, .close]
    ∃ relay, (start "a;b").run? 1 turns = some relay ∧ relay.queue = [] ∧
      relay.received.map (·.kind) = [.word] ∧ relay.consumer = .draining ∧
      ∃ turn next, relay.step? 1 turn = some next := by
  intro turns
  cases h : (start "a;b").run? 1 turns with
  | none =>
    have hsome : ((start "a;b").run? 1 turns).isSome = true := by decide +kernel
    rw [h] at hsome
    cases hsome
  | some relay =>
    have hstate : ((start "a;b").run? 1 turns).map
        (fun r => (r.queue, r.received.map (·.kind), r.consumer)) =
          some ([], [.word], .draining) := by
      decide +kernel
    rw [h, Option.map_some, Option.some.injEq, Prod.mk.injEq, Prod.mk.injEq] at hstate
    obtain ⟨hqueue, hreceived, hconsumer⟩ := hstate
    obtain ⟨-, -, -, -, -, hwaits, -⟩ := run?_delivers 1 "a;b" turns relay h
    exact ⟨relay, rfl, hqueue, hreceived, hconsumer, hwaits (by rw [hconsumer]; rfl)⟩

end Relay

end Tickle.Token
