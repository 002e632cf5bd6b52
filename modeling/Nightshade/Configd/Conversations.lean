import Mathlib
import Nightshade.Configd.Server

/-! What the peers of a server see, in any order of its tasks. Each reads the answers to its own requests in their
order, and what the daemon does is what it would do for those requests one after the other. -/
namespace Nightshade.Configd
open Foundation Schema

/-- The answers among what was carried out. -/
def answersOf {I : Type} (log : List (Service I)) : List (Reply I) := log.filterMap Service.reply

/-- What was carried out for a connection. -/
def Server.served {I H : Type} (server : Server I H) (i : ℕ) : List (Service I) :=
  server.log.filter (fun e => e.connection = i)

section
variable {I H F : Type}

/-- A connection and what was carried out for it. -/
structure Conversed (setting : Setting I H F) (log : List (Service I)) (c : Connection) : Prop where
  /-- The peer was admitted, under the name that is on the requests. -/
  authentic : ∀ e ∈ log, authenticate setting.db setting.access c.peer = .ok e.actor
  actor : ∀ actor, c.stage = .admitted actor → authenticate setting.db setting.access c.peer = .ok actor
  unserved : c.stage = .accepted → log = []
  /-- The requests are what the peer sent first. -/
  taken : ∃ fronts, List.Forall₂ (Proto.Framed setting.asks) (log.map Service.ask) fronts ∧
    fronts.flatten <+: c.sent ∧ (c.stage ≠ .closed → c.sent = fronts.flatten ++ c.incoming)
  /-- What was written is the answers, and perhaps a refusal behind them. -/
  told : ∃ said frames, List.Forall₂ (fun reply frame => Proto.encode setting.replies reply = .ok frame) said frames ∧
    c.outgoing <+: frames.flatten ∧ (c.stage ≠ .closed → c.outgoing = frames.flatten ∧ said = answersOf log) ∧
    (said <+: answersOf log ∨ ∃ text, said = answersOf log ++ [.response (.badRequest text)])
  /-- No request goes unanswered but the last. -/
  answered : (∀ e ∈ log.dropLast, e.reply.isSome) ∧ (c.stage ≠ .closed → ∀ e ∈ log, e.reply.isSome)

variable {setting : Setting I H F} {log : List (Service I)} {c : Connection}

theorem conversed_new (peer : Peer) : Conversed setting [] ⟨peer,.accepted,[],[],false,[]⟩ where
  authentic := fun _ h => by cases h
  actor := fun _ h => by cases h
  unserved := fun _ => rfl
  taken := ⟨[],.nil,List.nil_prefix,fun _ => rfl⟩
  told := ⟨[],[],.nil,List.nil_prefix,fun _ => ⟨rfl,rfl⟩,.inl List.nil_prefix⟩
  answered := ⟨by simp,by simp⟩

theorem Conversed.close (h : Conversed setting log c) : Conversed setting log c.close where
  authentic := h.authentic
  actor := fun _ h => by cases h
  unserved := fun h => by cases h
  taken := by
    obtain ⟨fronts,hfronts,hsent,-⟩ := h.taken
    exact ⟨fronts,hfronts,hsent,fun h => absurd rfl h⟩
  told := by
    obtain ⟨said,frames,hframes,hout,-,hsaid⟩ := h.told
    exact ⟨said,frames,hframes,hout,fun h => absurd rfl h,hsaid⟩
  answered := ⟨h.answered.1,fun h => absurd rfl h⟩

theorem Conversed.send (h : Conversed setting log c) (bytes : List UInt8) :
    Conversed setting log {c with sent := c.sent ++ bytes, incoming := c.incoming ++ bytes} where
  authentic := h.authentic
  actor := h.actor
  unserved := h.unserved
  taken := by
    obtain ⟨fronts,hfronts,hsent,hrest⟩ := h.taken
    refine ⟨fronts,hfronts,hsent.trans (List.prefix_append _ _),fun halive => ?_⟩
    show c.sent ++ bytes = fronts.flatten ++ (c.incoming ++ bytes)
    rw [hrest halive,List.append_assoc]
  told := h.told
  answered := h.answered

theorem Conversed.finish (h : Conversed setting log c) : Conversed setting log {c with ended := true} :=
  ⟨h.authentic,h.actor,h.unserved,h.taken,h.told,h.answered⟩

theorem Conversed.admitted (h : Conversed setting log c) (haccepted : c.stage = .accepted) {actor : Actor}
    (hactor : authenticate setting.db setting.access c.peer = .ok actor) :
    Conversed setting log {c with stage := .admitted actor} where
  authentic := h.authentic
  actor := fun actor' hstage => by cases hstage; exact hactor
  unserved := fun h => by cases h
  taken := by
    obtain ⟨fronts,hfronts,hsent,hrest⟩ := h.taken
    exact ⟨fronts,hfronts,hsent,fun _ => hrest (by rw [haccepted]; nofun)⟩
  told := by
    obtain ⟨said,frames,hframes,hout,hall,hsaid⟩ := h.told
    exact ⟨said,frames,hframes,hout,fun _ => hall (by rw [haccepted]; nofun),hsaid⟩
  answered := ⟨h.answered.1,fun _ => h.answered.2 (by rw [haccepted]; nofun)⟩

/-- What is written behind the answers, of which the connection ends. -/
theorem Conversed.refuse (h : Conversed setting log c) (halive : c.stage ≠ .closed) (text : String) (written : Option ℕ) :
    Conversed setting log (c.write setting.replies (.response (.badRequest text)) written).close := by
  obtain ⟨said,frames,hframes,-,hall,-⟩ := h.told
  obtain ⟨hout,rfl⟩ := hall halive
  unfold Connection.write
  cases hframe : Proto.encode setting.replies (.response (.badRequest text)) with
  | error e => exact h.close.close
  | ok frame =>
    have hsaid := List.rel_append hframes (List.Forall₂.cons hframe .nil)
    have hmore : ∀ part, part <+: frame → Conversed setting log {c with outgoing := c.outgoing ++ part}.close := by
      intro part hpart
      refine { h.close with told := ⟨_,_,hsaid,?_,fun h => absurd rfl h,.inr ⟨text,rfl⟩⟩ }
      show c.outgoing ++ part <+: (frames ++ [frame]).flatten
      rw [hout,List.flatten_append,List.flatten_singleton]
      exact (List.prefix_append_right_inj _).mpr hpart
    cases written with
    | none => exact hmore frame (List.prefix_refl frame)
    | some n => exact (hmore (frame.take n) (List.take_prefix n frame)).close

theorem Conversed.authentic_more (h : Conversed setting log c) {actor : Actor} (hadmitted : c.stage = .admitted actor)
    (i : ℕ) (ask : Ask) (reply : Option (Reply I)) :
    ∀ e ∈ log ++ [(⟨i,actor,ask,reply⟩ : Service I)], authenticate setting.db setting.access c.peer = .ok e.actor := by
  intro e he
  obtain he | he := List.mem_append.mp he
  · exact h.authentic e he
  · rw [List.mem_singleton.mp he]
    exact h.actor actor hadmitted

theorem Conversed.taken_more (h : Conversed setting log c) (halive : c.stage ≠ .closed) {ask : Ask}
    {front rest : List UInt8} (hfront : Proto.Framed setting.asks ask front) (hincoming : c.incoming = front ++ rest)
    (i : ℕ) (actor : Actor) (reply : Option (Reply I)) :
    ∃ fronts, List.Forall₂ (Proto.Framed setting.asks) ((log ++ [(⟨i,actor,ask,reply⟩ : Service I)]).map Service.ask) fronts ∧
      c.sent = fronts.flatten ++ rest := by
  obtain ⟨fronts,hfronts,-,hsent⟩ := h.taken
  refine ⟨fronts ++ [front],?_,?_⟩
  · rw [List.map_append]
    exact List.rel_append hfronts (.cons hfront .nil)
  · rw [hsent halive,hincoming,List.flatten_append,List.flatten_singleton,List.append_assoc]

/-- A request that is carried out, and answered as far as writing goes. -/
theorem Conversed.serve (h : Conversed setting log c) {actor : Actor} (hadmitted : c.stage = .admitted actor) {ask : Ask}
    {front rest : List UInt8} (hfront : Proto.Framed setting.asks ask front) (hincoming : c.incoming = front ++ rest)
    (i : ℕ) (reply : Reply I) (written : Option ℕ) :
    Conversed setting (log ++ [⟨i,actor,ask,some reply⟩])
      (({c with incoming := rest} : Connection).write setting.replies reply written) := by
  have halive : c.stage ≠ .closed := by rw [hadmitted]; nofun
  obtain ⟨fronts,hfronts,hsent⟩ := h.taken_more halive hfront hincoming i actor (some reply)
  obtain ⟨said,frames,hframes,-,hall,-⟩ := h.told
  obtain ⟨hout,rfl⟩ := hall halive
  have hanswers : answersOf (log ++ [⟨i,actor,ask,some reply⟩]) = answersOf log ++ [reply] := by
    simp [answersOf]
  have hsome : ∀ e ∈ log ++ [(⟨i,actor,ask,some reply⟩ : Service I)], e.reply.isSome := by
    intro e he
    obtain he | he := List.mem_append.mp he
    · exact h.answered.2 halive e he
    · rw [List.mem_singleton.mp he]
      rfl
  have hmore : ∀ (said : List (Reply I)) (frames : List (List UInt8)) (out : List UInt8) (stage : Stage),
      List.Forall₂ (fun reply frame => Proto.encode setting.replies reply = .ok frame) said frames →
      out <+: frames.flatten → (stage ≠ .closed → out = frames.flatten ∧ said = answersOf log ++ [reply]) →
      said <+: answersOf log ++ [reply] → (stage ≠ .closed → stage = c.stage) →
      Conversed setting (log ++ [⟨i,actor,ask,some reply⟩])
        {c with incoming := rest, outgoing := out, stage := stage} := by
    intro said frames out stage hframes hbegins hall hsaid hstage
    refine ⟨h.authentic_more hadmitted i ask _,?_,?_,⟨fronts,hfronts,?_,fun _ => hsent⟩,
      ⟨said,frames,hframes,hbegins,?_,.inl (hanswers ▸ hsaid)⟩,?_,fun _ => hsome⟩
    · intro actor' hactor'
      have hne : stage ≠ .closed := by rintro rfl; cases hactor'
      exact h.actor actor' ((hstage hne).symm.trans hactor')
    · intro haccepted
      have hne : stage ≠ .closed := by rintro rfl; cases haccepted
      have heq := (hstage hne).symm.trans haccepted
      rw [hadmitted] at heq
      cases heq
    · exact hsent ▸ List.prefix_append _ _
    · rw [hanswers]
      exact hall
    · rw [List.dropLast_concat]
      exact h.answered.2 halive
  unfold Connection.write
  cases hframe : Proto.encode setting.replies reply with
  | error e =>
    exact hmore (answersOf log) frames c.outgoing .closed hframes (hout ▸ List.prefix_refl _) (fun h => absurd rfl h)
      (List.prefix_append _ _) (fun h => absurd rfl h)
  | ok frame =>
    have hsaid := List.rel_append hframes (List.Forall₂.cons hframe .nil)
    have hflat : (frames ++ [frame]).flatten = c.outgoing ++ frame := by
      rw [hout,List.flatten_append,List.flatten_singleton]
    cases written with
    | none =>
      exact hmore _ _ (c.outgoing ++ frame) c.stage hsaid (hflat ▸ List.prefix_refl _) (fun _ => ⟨hflat.symm,rfl⟩)
        (List.prefix_refl _) (fun _ => rfl)
    | some n =>
      refine hmore _ _ (c.outgoing ++ frame.take n) .closed hsaid ?_ (fun h => absurd rfl h) (List.prefix_refl _)
        (fun h => absurd rfl h)
      rw [hflat]
      exact (List.prefix_append_right_inj _).mpr (List.take_prefix n frame)

/-- A request in which the daemon is killed. -/
theorem Conversed.cutOff (h : Conversed setting log c) {actor : Actor} (hadmitted : c.stage = .admitted actor) {ask : Ask}
    {front rest : List UInt8} (hfront : Proto.Framed setting.asks ask front) (hincoming : c.incoming = front ++ rest)
    (i : ℕ) :
    Conversed setting (log ++ [⟨i,actor,ask,none⟩]) ({c with incoming := rest} : Connection).close := by
  have halive : c.stage ≠ .closed := by rw [hadmitted]; nofun
  obtain ⟨fronts,hfronts,hsent⟩ := h.taken_more halive hfront hincoming i actor none
  obtain ⟨said,frames,hframes,hout,-,hsaid⟩ := h.told
  have hanswers : answersOf (log ++ [⟨i,actor,ask,none⟩]) = answersOf log := by simp [answersOf]
  refine ⟨h.authentic_more hadmitted i ask none,fun _ h => (by cases h),fun h => (by cases h),
    ⟨fronts,hfronts,?_,fun h => absurd rfl h⟩,⟨said,frames,hframes,hout,fun h => absurd rfl h,?_⟩,?_,fun h => absurd rfl h⟩
  · show fronts.flatten <+: c.sent
    exact hsent ▸ List.prefix_append _ _
  · rw [hanswers]
    exact hsaid
  · rw [List.dropLast_concat]
    exact h.answered.2 halive

/-! ### All connections -/

/-- Every connection has its own conversation. -/
structure Server.Conversing {I H F : Type} (setting : Setting I H F) (server : Server I H) : Prop where
  numbered : ∀ e ∈ server.log, e.connection < server.connections.length
  conversed : ∀ i c, server.connections[i]? = some c → Conversed setting (server.served i) c

variable {server : Server I H}

theorem Server.Conversing.put (h : server.Conversing setting) {i : ℕ} {c' : Connection}
    (hc' : Conversed setting (server.served i) c') : (server.put i c').Conversing setting where
  numbered := by
    show ∀ e ∈ server.log, e.connection < (server.connections.set i c').length
    rw [List.length_set]
    exact h.numbered
  conversed := by
    intro j d hd
    change (server.connections.set i c')[j]? = some d at hd
    show Conversed setting (server.served j) d
    rw [List.getElem?_set] at hd
    split at hd
    · next hij =>
      subst hij
      split at hd
      · cases hd
        exact hc'
      · cases hd
    · exact h.conversed j d hd

theorem Server.Conversing.settle (h : server.Conversing setting) : server.settle.Conversing setting := by
  unfold Server.settle
  split
  · exact h
  · refine ⟨fun e he => ?_,fun i c hc => ?_⟩
    · rw [List.length_map]
      exact h.numbered e he
    · rw [List.getElem?_map] at hc
      obtain ⟨c',hc',rfl⟩ := Option.map_eq_some_iff.mp hc
      exact (h.conversed i c' hc').close

theorem Server.Conversing.own (h : server.Conversing setting) (sys : System H) :
    Server.Conversing setting {server with system := sys} := ⟨h.numbered,h.conversed⟩

/-- A request of one connection is on the log of that connection, and of no other. -/
theorem Server.Conversing.record (h : server.Conversing setting) {i : ℕ} {c c' : Connection} (sys : System H)
    (hc : server.connections[i]? = some c) {e : Service I} (he : e.connection = i)
    (hc' : Conversed setting (server.served i ++ [e]) c') :
    Server.Conversing setting ⟨sys,server.connections.set i c',server.log ++ [e]⟩ where
  numbered := by
    intro e' he'
    show e'.connection < (server.connections.set i c').length
    rw [List.length_set]
    obtain he' | he' := List.mem_append.mp he'
    · exact h.numbered e' he'
    · rw [List.mem_singleton.mp he',he]
      exact (List.getElem?_eq_some_iff.mp hc).1
  conversed := by
    intro j d hd
    change (server.connections.set i c')[j]? = some d at hd
    show Conversed setting ((server.log ++ [e]).filter (fun e => e.connection = j)) d
    rw [List.filter_append]
    rw [List.getElem?_set] at hd
    split at hd
    · next hij =>
      subst hij
      split at hd
      · cases hd
        have hone : [e].filter (fun e => e.connection = i) = [e] := by simp [he]
        rw [hone]
        exact hc'
      · cases hd
    · next hij =>
      have hother : [e].filter (fun e => e.connection = j) = [] := by simp [he,hij]
      rw [hother,List.append_nil]
      exact h.conversed j d hd

theorem Server.Conversing.serve (h : server.Conversing setting) {i : ℕ} {c : Connection}
    (hc : server.connections[i]? = some c) (s : State) (pace : List ℕ) (written : Option ℕ) (env : Env)
    (fate : ℕ → Effect → Fate F) : (server.serve setting i c s pace written env fate).Conversing setting := by
  have hconv := h.conversed i c hc
  unfold Server.serve
  cases hstage : c.stage with
  | closed => exact h
  | accepted =>
    have halive : c.stage ≠ .closed := by rw [hstage]; nofun
    dsimp only
    split
    · next actor hactor => exact h.put (hconv.admitted hstage hactor)
    · next e he => exact h.put (hconv.refuse halive e.message written)
  | admitted actor =>
    have halive : c.stage ≠ .closed := by rw [hstage]; nofun
    dsimp only
    split
    · split
      · exact h.put hconv.close
      · exact h.put hconv.close
      · next e he => exact h.put (hconv.refuse halive _ written)
      · next ask hask =>
        obtain ⟨front,hfront,hincoming⟩ := Proto.framed_of_read hask
        unfold Server.carryOut
        split
        · next r box hr =>
          have hserved := hconv.serve hstage hfront hincoming i r.1 written
          rw [hstage] at hserved
          exact h.record _ hc rfl hserved
        · next box hr =>
          have hcut := (h.record ⟨box,none⟩ hc rfl (hconv.cutOff hstage hfront hincoming i)).settle
          have hsame : ∀ d : Connection, (server.connections.set i d).map Connection.close =
              (server.connections.set i d.close).map Connection.close := by
            intro d
            rw [List.map_set,List.map_set]
            rfl
          unfold Server.settle at hcut ⊢
          dsimp only at hcut ⊢
          rw [hsame]
          exact hcut
    · exact h

theorem Server.Conversing.step (h : server.Conversing setting) (happening : Happening F) :
    (server.step setting happening).Conversing setting := by
  have hon : ∀ (i : ℕ) (f : Connection → Server I H), (∀ c, server.connections[i]? = some c → (f c).Conversing setting) →
      (server.onConnection i f).Conversing setting := by
    intro i f hf
    unfold Server.onConnection
    split
    · next c hc => exact hf c hc
    · exact h
  cases happening with
  | connect peer =>
    refine ⟨fun e he => ?_,fun i c hc => ?_⟩
    · show e.connection < (server.connections ++ _).length
      rw [List.length_append]
      exact (h.numbered e he).trans_le (Nat.le_add_right _ _)
    · change (server.connections ++ [_])[i]? = some c at hc
      rw [List.getElem?_append] at hc
      split at hc
      · exact h.conversed i c hc
      · next hlen =>
        have hnone : server.served i = [] := by
          refine List.filter_eq_nil_iff.mpr (fun e he hi => hlen ?_)
          rw [← of_decide_eq_true hi]
          exact h.numbered e he
        obtain ⟨hzero,rfl⟩ : i-server.connections.length = 0 ∧ c = ⟨peer,.accepted,[],[],false,[]⟩ := by
          rw [List.getElem?_singleton] at hc
          split at hc
          · next hz => exact ⟨hz,(Option.some.inj hc).symm⟩
          · cases hc
        show Conversed setting (server.served i) _
        rw [hnone]
        exact conversed_new peer
  | send i bytes =>
    refine hon i _ (fun c hc => ?_)
    split
    · exact h
    · exact h.put ((h.conversed i c hc).send bytes)
  | finish i => exact hon i _ (fun c hc => h.put (h.conversed i c hc).finish)
  | idle i => exact hon i _ (fun c hc => h.put (h.conversed i c hc).close)
  | turn i pace written env fate =>
    unfold Server.step
    dsimp only
    split
    · next s hs => exact hon i _ (fun c hc => h.serve hc s pace written env fate)
    · exact h
  | own ev =>
    unfold Server.step
    dsimp only
    split
    · exact h
    · exact (h.own _).settle

theorem Server.conversing_new (system : System H) : Server.Conversing setting ⟨system,[],[]⟩ where
  numbered := by simp
  conversed := by simp

theorem Server.conversing_run (setting : Setting I H F) (system : System H) (happenings : List (Happening F)) :
    (happenings.foldl (Server.step setting) ⟨system,[],[]⟩).Conversing setting := by
  have hrun : ∀ server : Server I H, server.Conversing setting →
      (happenings.foldl (Server.step setting) server).Conversing setting := by
    induction happenings with
    | nil => exact fun _ h => h
    | cons happening happenings ih => exact fun server h => ih _ (h.step happening)
  exact hrun _ (Server.conversing_new system)

/-- What a peer is to find of its own requests. -/
structure Paired (setting : Setting I H F) (served : List (Service I)) (c : Connection) : Prop where
  /-- They were carried out in its name. -/
  authentic : ∀ e ∈ served, authenticate setting.db setting.access c.peer = .ok e.actor
  /-- They are the ones that it began with, if it wrote nothing else. -/
  inOrder : ∀ asks frames, List.Forall₂ (fun ask frame => Proto.encode setting.asks ask = .ok frame) asks frames →
    c.sent <+: frames.flatten → served.map Service.ask <+: asks
  /-- None but the last was left without an answer. -/
  answered : ∀ e ∈ served.dropLast, e.reply.isSome
  /-- However much of them it reads, it reads their answers, and a refusal behind them at most. -/
  heard : ∃ text, ∀ fuel pace, (Proto.drain (Proto.readNext setting.replies) fuel ⟨c.outgoing,pace⟩).1 <+:
    answersOf served ++ [.response (.badRequest text)]
  /-- As long as the connection lasts, every request is answered, and the answers are all there. -/
  current : c.stage ≠ .closed → ∀ fuel pace, served.length < fuel →
    (Proto.drain (Proto.readNext setting.replies) fuel ⟨c.outgoing,pace⟩).1.map some = served.map Service.reply

theorem answersOf_some (h : ∀ e ∈ log, e.reply.isSome) : (answersOf log).map some = log.map Service.reply := by
  induction log with
  | nil => rfl
  | cons e log ih =>
    obtain ⟨reply,hreply⟩ := Option.isSome_iff_exists.mp (h e List.mem_cons_self)
    have hrest := ih (fun e he => h e (List.mem_cons_of_mem _ he))
    rw [answersOf,List.filterMap_cons,hreply,List.map_cons,List.map_cons,hreply]
    exact congrArg (some reply :: ·) hrest

theorem Conversed.paired (h : Conversed setting log c) (hasks : setting.asks.Faithful)
    (hreplies : setting.replies.Faithful) : Paired setting log c where
  authentic := h.authentic
  inOrder := by
    intro asks frames hframes hsent
    obtain ⟨fronts,hfronts,htaken,-⟩ := h.taken
    exact Proto.framed_prefix hfronts (hframes.imp (fun _ _ => Proto.framed_encode hasks)) (htaken.trans hsent)
  answered := h.answered.1
  heard := by
    obtain ⟨said,frames,hframes,hout,-,hsaid⟩ := h.told
    have hread := fun fuel pace =>
      Proto.drain_prefix (hframes.imp (fun _ _ => Proto.framed_encode hreplies)) hout fuel pace
    obtain hsaid | ⟨text,rfl⟩ := hsaid
    · exact ⟨"",fun fuel pace => ((hread fuel pace).trans hsaid).trans (List.prefix_append _ _)⟩
    · exact ⟨text,hread⟩
  current := by
    intro halive fuel pace hfuel
    obtain ⟨said,frames,hframes,-,hall,-⟩ := h.told
    obtain ⟨hout,rfl⟩ := hall halive
    have hsome := answersOf_some (h.answered.2 halive)
    have hlen : (answersOf log).length = log.length := by
      have := congrArg List.length hsome
      rwa [List.length_map,List.length_map] at this
    rw [hout,Proto.drain_all hreplies hframes (hlen ▸ hfuel) pace]
    exact hsome

/-- Whatever peers connect, send and read, in whatever order the tasks take their turns and wherever the daemon is cut
off: the requests of each connection are carried out in the name of its peer, in the order in which they were sent, and
their answers come back on it in that order. -/
theorem answers_paired (setting : Setting I H F) (hasks : setting.asks.Faithful) (hreplies : setting.replies.Faithful)
    (system : System H) (happenings : List (Happening F)) {i : ℕ} {c : Connection}
    (hc : (happenings.foldl (Server.step setting) ⟨system,[],[]⟩).connections[i]? = some c) :
    Paired setting ((happenings.foldl (Server.step setting) ⟨system,[],[]⟩).served i) c :=
  ((Server.conversing_run setting system happenings).conversed i c hc).paired hasks hreplies

/-- A message of the shell as CBOR writes it, up to what it says. -/
def shellSession : List UInt8 :=
  [0xa1,0x6c,0x53,0x68,0x65,0x6c,0x6c,0x53,0x65,0x73,0x73,0x69,0x6f,0x6e,0xa1,0x68,0x65,0x6e,0x74,0x65,0x72,0x69,0x6e,
    0x67]

/-- The two messages of the shell. -/
def cborShell : Proto.Cbor Ask where
  intoWriter
    | .shellSession entering => .ok (shellSession ++ [if entering then 0xf5 else 0xf4])
    | _ => .error "not a message of the shell"
  fromReader body :=
    if body.take 24 = shellSession then
      if body.drop 24 = [0xf5] then .ok (.shellSession true)
      else if body.drop 24 = [0xf4] then .ok (.shellSession false)
      else .error "not a message of the shell"
    else .error "not a message of the shell"

theorem cborShell_faithful : cborShell.Faithful where
  roundTrip ask body h := by
    cases ask with
    | shellSession entering => obtain rfl := Except.ok.inj h; cases entering <;> rfl
    | _ => cases h
  nonempty ask body h := by
    cases ask with
    | shellSession entering => obtain rfl := Except.ok.inj h; nofun
    | _ => cases h

/-- The answer that there is nothing to answer, as CBOR writes it. -/
def cborDone : Proto.Cbor (Reply Unit) where
  intoWriter
    | .response .ok => .ok [0x62,0x4f,0x6b]
    | _ => .error "not done"
  fromReader body := if body = [0x62,0x4f,0x6b] then .ok (.response .ok) else .error "not done"

theorem cborDone_faithful : cborDone.Faithful where
  roundTrip reply body h := by
    unfold cborDone at h ⊢
    dsimp only at h ⊢
    split at h
    · obtain rfl := Except.ok.inj h; rfl
    · cases h
  nonempty reply body h := by
    unfold cborDone at h
    dsimp only at h
    split at h
    · obtain rfl := Except.ok.inj h; nofun
    · cases h

/-- A box with no users but root, and no interfaces. -/
def shellSetting : Setting Unit (Option ConfigTree) Unit where
  site := .taking (Shipped.schema [])
  interfaces := ⟨fun _ _ => (),fun _ => true⟩
  db := ⟨fun _ => .ok none,fun _ => .ok none⟩
  access := .group "nightshade-admin"
  asks := cborShell
  replies := cborDone
  words := fun _ => "unexpected end of file"

/-- A turn in which everything is written. -/
def Happening.whole (i : ℕ) : Happening Unit := .turn i [] none ⟨0,"",.ok "0123456789abcdef"⟩ (.smooth ())

/-- Root enters a shell and leaves it, and sends the second message in two parts. -/
def shellVisit : List (Happening Unit) :=
  (tried.take 3).map .own ++ [.connect ⟨0,0⟩,.whole 0,
    .send 0 ([0,0,0,25] ++ shellSession ++ [0xf5,0,0,0,25] ++ shellSession),.whole 0,.whole 0,.send 0 [0xf4],.whole 0]

def shellServer : Server Unit (Option ConfigTree) :=
  shellVisit.foldl (Server.step shellSetting) ⟨⟨Box.fresh none none,none⟩,[],[]⟩

/-- Both messages are answered. -/
theorem shell_paired : ∃ c, shellServer.connections[0]? = some c ∧
    (Proto.drain (Proto.readNext cborDone) 3 ⟨c.outgoing,[]⟩).1 = [.response .ok,.response .ok] ∧
    Paired shellSetting (shellServer.served 0) c := by
  obtain ⟨c,hc⟩ : ∃ c, shellServer.connections[0]? = some c := Option.isSome_iff_exists.mp (by decide +kernel)
  refine ⟨c,hc,?_,answers_paired shellSetting cborShell_faithful cborDone_faithful ⟨Box.fresh none none,none⟩ shellVisit hc⟩
  have hout : shellServer.connections[0]?.map Connection.outgoing = some [0,0,0,3,0x62,0x4f,0x6b,0,0,0,3,0x62,0x4f,0x6b] := by
    decide +kernel
  rw [hc] at hout
  rw [Option.some.inj hout]
  rfl

/-! ### The daemon behind the socket -/

/-- The requests among events, and their answers. -/
def transcript (site : Site H F) : System H → List (Event F) → List (Actor × Request × Option Response)
  | _, [] => []
  | sys, ev::evs =>
    match ev.action with
    | .request actor request => (actor,request,sys.reply site ev)::transcript site (sys.step site ev) evs
    | _ => transcript site (sys.step site ev) evs

/-- What was carried out, if it was more than a look. -/
def Service.entry (e : Service I) : Option (Actor × Request × Option Response) :=
  match e.ask with
  | .request request =>
    some (e.actor,request,e.reply.bind (fun reply => match reply with | .response r => some r | _ => none))
  | _ => none

theorem transcript_append (site : Site H F) (sys : System H) (evs evs' : List (Event F)) :
    transcript site sys (evs ++ evs') =
      transcript site sys evs ++ transcript site (evs.foldl (System.step site) sys) evs' := by
  induction evs generalizing sys with
  | nil => rfl
  | cons ev evs ih =>
    rw [List.cons_append,List.foldl_cons,transcript,transcript,ih]
    split <;> rfl

/-- What a request does and is answered, from what the daemon does with it. -/
theorem System.outcome_request {site : Site H F} {sys : System H} {s : State} (hs : sys.process = some ⟨.serving,s⟩)
    (actor : Actor) (request : Request) (env : Env) (fate : ℕ → Effect → Fate F) :
    sys.outcome site ⟨.request actor request,env,fate⟩ =
      (((handle site.schema env s actor request).run (perform site) fate 0 sys.box).1.map Prod.fst,
        ⟨((handle site.schema env s actor request).run (perform site) fate 0 sys.box).2,
          ((handle site.schema env s actor request).run (perform site) fate 0 sys.box).1.map
            (fun r => ⟨.serving,r.2⟩)⟩) := by
  have hprogram : (Action.request actor request).program site.schema env sys.process =
      (handle site.schema env s actor request).bind (fun r => .done (some r.1,some ⟨.serving,r.2⟩)) := by
    rw [hs]
    rfl
  have hfound : sys.found site ⟨.request actor request,env,fate⟩ = sys.box := if_neg (fun h => by cases h)
  unfold System.outcome
  dsimp only
  rw [hprogram,hfound,Prog.run_map]
  rcases (handle site.schema env s actor request).run (perform site) fate 0 sys.box with ⟨_ | r,box⟩ <;> rfl

/-- A look leaves the box and the state as they are. -/
theorem run_look {schema : Schema} (interfaces : Interfaces I) {env : Env} {s : State} {actor : Actor} {ask : Ask}
    (hlook : ∀ request, ask ≠ .request request) (site : Site H F) (fate : ℕ → Effect → Fate F) (box : Box H) :
    ∃ reply : Option (Reply I), (answer schema interfaces env s actor ask).run (perform site) fate 0 box =
      (reply.map (fun r => (r,s)),box) := by
  cases ask with
  | request request => exact absurd rfl (hlook request)
  | showCandidate id path => exact ⟨some _,rfl⟩
  | showRunning path => exact ⟨some _,rfl⟩
  | opShow target => exact ⟨some _,rfl⟩
  | shellSession entering => exact ⟨some _,rfl⟩
  | showSaved path =>
    refine ⟨((showSaved path).run (perform site) fate 0 box).1,?_⟩
    have hbox : ((showSaved path : Act (Reply I)).run (perform site) fate 0 box).2 = box := by
      unfold showSaved
      simp only [Disk.readSaved,Prog.bind_eq,Prog.call_bind,Prog.run,perform,IoFate.read]
      cases (fate 0 .readSaved).io with
      | kill => rfl
      | fail reason => rfl
      | ok =>
        simp only [IoFate.look]
        split <;> rfl
    exact (Prog.run_map (fun r : Reply I => (r,s)) (showSaved path) 0 box).trans (Prod.ext rfl hbox)

/-- One server comes from another by events of the daemon, of which every request is on the log with its answer; what
is no request was given, or is the end of the daemon. -/
def Server.Follows (setting : Setting I H F) (given : List (Happening F)) (server server' : Server I H) : Prop :=
  ∃ evs : List (Event F), server'.system = evs.foldl (System.step setting.site) server.system ∧
    server'.log.filterMap Service.entry = server.log.filterMap Service.entry ++ transcript setting.site server.system evs ∧
    ∀ ev ∈ evs, (∃ actor request, ev.action = .request actor request) ∨ .own ev ∈ given ∨ ev.action = .stop

section
variable {given given' : List (Happening F)} {server server' server'' : Server I H}

theorem Server.Follows.of_eq (hsystem : server'.system = server.system) (hlog : server'.log = server.log) :
    server.Follows setting given server' :=
  ⟨[],hsystem,by rw [hlog,transcript,List.append_nil],by simp⟩

theorem Server.Follows.trans (h : server.Follows setting given server') (h' : server'.Follows setting given' server'') :
    server.Follows setting (given ++ given') server'' := by
  obtain ⟨evs,hsystem,hlog,hall⟩ := h
  obtain ⟨evs',hsystem',hlog',hall'⟩ := h'
  refine ⟨evs ++ evs',?_,?_,fun ev hev => ?_⟩
  · rw [List.foldl_append,← hsystem,hsystem']
  · rw [transcript_append,← hsystem,hlog',hlog,List.append_assoc]
  · obtain hev | hev := List.mem_append.mp hev
    · obtain hrequest | hown | hstop := hall ev hev
      · exact .inl hrequest
      · exact .inr (.inl (List.mem_append_left _ hown))
      · exact .inr (.inr hstop)
    · obtain hrequest | hown | hstop := hall' ev hev
      · exact .inl hrequest
      · exact .inr (.inl (List.mem_append_right _ hown))
      · exact .inr (.inr hstop)

@[simp] theorem Server.settle_system (server : Server I H) : server.settle.system = server.system := by
  unfold Server.settle
  split <;> rfl

@[simp] theorem Server.settle_log (server : Server I H) : server.settle.log = server.log := by
  unfold Server.settle
  split <;> rfl

theorem Server.follows_carryOut {s : State} (hs : server.system.process = some ⟨.serving,s⟩) (i : ℕ) (c : Connection)
    (actor : Actor) (ask : Ask) (written : Option ℕ) (env : Env) (fate : ℕ → Effect → Fate F) :
    server.Follows setting given (server.carryOut setting i c s actor ask written env fate) := by
  by_cases hrequest : ∃ request, ask = .request request
  · obtain ⟨request,rfl⟩ := hrequest
    have hanswer : (answer setting.site.schema setting.interfaces env s actor (.request request)).run
        (perform setting.site) fate 0 server.system.box = _ :=
      Prog.run_map (fun r : Response × State => ((.response r.1,r.2) : Reply I × State))
        (handle setting.site.schema env s actor request) 0 server.system.box
    have houtcome := @System.outcome_request H F setting.site server.system s hs actor request env fate
    refine ⟨[⟨.request actor request,env,fate⟩],?_,?_,fun ev hev => .inl ⟨actor,request,?_⟩⟩
    · rw [List.foldl_cons,List.foldl_nil,System.step,houtcome]
      unfold Server.carryOut
      rw [hanswer]
      rcases (handle setting.site.schema env s actor request).run (perform setting.site) fate 0 server.system.box with
        ⟨_ | r,box⟩
      · exact Server.settle_system _
      · rfl
    · rw [transcript,System.reply,houtcome]
      unfold Server.carryOut
      rw [hanswer]
      rcases (handle setting.site.schema env s actor request).run (perform setting.site) fate 0 server.system.box with
        ⟨_ | r,box⟩
      · exact (congrArg _ (Server.settle_log _)).trans List.filterMap_append
      · exact List.filterMap_append
    · rw [List.mem_singleton.mp hev]
  · have hlook : ∀ request, ask ≠ .request request := fun request h => hrequest ⟨request,h⟩
    have hentry : ∀ reply : Option (Reply I), [(⟨i,actor,ask,reply⟩ : Service I)].filterMap Service.entry = [] := by
      intro reply
      cases ask with
      | request request => exact absurd rfl (hlook request)
      | _ => rfl
    obtain ⟨reply,hanswer⟩ := @run_look I H F setting.site.schema setting.interfaces env s actor ask hlook setting.site fate
      server.system.box
    cases reply with
    | none =>
      -- the daemon was killed over a look
      refine ⟨[⟨.stop,env,fate⟩],?_,?_,fun ev hev => .inr (.inr ?_)⟩
      · unfold Server.carryOut
        rw [hanswer]
        exact Server.settle_system _
      · unfold Server.carryOut
        rw [hanswer]
        refine (congrArg _ (Server.settle_log _)).trans ?_
        rw [List.filterMap_append,hentry]
        rfl
      · rw [List.mem_singleton.mp hev]
    | some reply =>
      refine ⟨[],?_,?_,by simp⟩
      · unfold Server.carryOut
        rw [hanswer]
        show (⟨server.system.box,some ⟨.serving,s⟩⟩ : System H) = server.system
        rw [← hs]
      · unfold Server.carryOut
        rw [hanswer]
        refine List.filterMap_append.trans ?_
        rw [hentry]
        rfl

theorem Server.follows_serve {s : State} (hs : server.system.process = some ⟨.serving,s⟩) (i : ℕ) (c : Connection)
    (pace : List ℕ) (written : Option ℕ) (env : Env) (fate : ℕ → Effect → Fate F) :
    server.Follows setting given (server.serve setting i c s pace written env fate) := by
  unfold Server.serve
  cases c.stage with
  | closed => exact .of_eq rfl rfl
  | accepted =>
    dsimp only
    split
    · exact .of_eq rfl rfl
    · exact .of_eq rfl rfl
  | admitted actor =>
    dsimp only
    split
    · split
      · exact .of_eq rfl rfl
      · exact .of_eq rfl rfl
      · exact .of_eq rfl rfl
      · next ask _ => exact Server.follows_carryOut hs i _ actor ask written env fate
    · exact .of_eq rfl rfl

theorem Server.follows_step (server : Server I H) (happening : Happening F) :
    server.Follows setting [happening] (server.step setting happening) := by
  have hon : ∀ (i : ℕ) (f : Connection → Server I H), (∀ c, server.Follows setting [happening] (f c)) →
      server.Follows setting [happening] (server.onConnection i f) := by
    intro i f hf
    unfold Server.onConnection
    split
    · exact hf _
    · exact .of_eq rfl rfl
  cases happening with
  | connect peer => exact .of_eq rfl rfl
  | send i bytes =>
    refine hon i _ (fun c => ?_)
    split
    · exact .of_eq rfl rfl
    · exact .of_eq rfl rfl
  | finish i => exact hon i _ (fun c => .of_eq rfl rfl)
  | idle i => exact hon i _ (fun c => .of_eq rfl rfl)
  | turn i pace written env fate =>
    unfold Server.step
    dsimp only
    split
    · next s hs => exact hon i _ (fun c => Server.follows_serve hs i c pace written env fate)
    · exact .of_eq rfl rfl
  | own ev =>
    unfold Server.step
    dsimp only
    split
    · exact .of_eq rfl rfl
    · next hown =>
      refine ⟨[ev],Server.settle_system _,?_,fun ev' hev' => .inr (.inl ?_)⟩
      · rw [Server.settle_log]
        unfold transcript
        split
        · next actor request haction => exact absurd haction (hown actor request)
        · exact (List.append_nil _).symm
      · rw [List.mem_singleton.mp hev']
        exact List.mem_singleton_self _

theorem Server.follows_run (server : Server I H) (happenings : List (Happening F)) :
    server.Follows setting happenings (happenings.foldl (Server.step setting) server) := by
  induction happenings generalizing server with
  | nil => exact .of_eq rfl rfl
  | cons happening happenings ih => exact (Server.follows_step server happening).trans (ih _)

end

end
end Nightshade.Configd
