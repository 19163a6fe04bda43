import Mini2.ForwardRetry
import Mini2.Topology

/-!
Forwarding over the tables the generator emits: the tables of the nodes were computed one
source at a time, and together they make shortest paths.
-/

namespace Mini2.GeneratedRoutes

open Mini2.Proto Mini2.Net Mini2.Request Mini2.Forward Mini2.ForwardRetry Mini2.Topology

/-- The nodes met from `src` on by `k` times taking the next hop toward `dst` in the table of
the node just reached. -/
def path (ov : Overlay Node) (dst : Node) (k : ℕ) (src : Node) : List Node :=
  Bfs.follow (fun u => (ov.nextHop u dst).toOption) k src

def ShortestPaths (G : SimpleGraph Node) (ov : Overlay Node) : Prop :=
  ∀ src dst, (path ov dst (G.dist src dst) src).length = G.dist src dst + 1 ∧
    (path ov dst (G.dist src dst) src).getLast? = some dst ∧
    (path ov dst (G.dist src dst) src).Nodup ∧ G.dist src dst ≤ nodes.length - 1

/-- A query the gateway forwards with a time to live of 8 is accepted by its target when no
hop fails, is rejected for a failed hop only, and changes no table but that of its target. -/
def ForwardsReach (ov : Overlay Node) (Rid Query Row : Type) [DecidableEq Rid] : Prop :=
  ∀ (shard : Node → Shard Query Row) (rid : Rid) (q : Query) (T : Tables Node Rid Row)
    (target : Node), target ≠ gateway → ∃ hop, ov.nextHop gateway target = .ok hop ∧
      ov.hasNode hop = true ∧
      attemptForward ⟨ov, shard⟩ rid q target hop (fun _ => .delivered) T =
        (.ok ⟨true, ""⟩, (⟨ov, shard⟩ : Peers Node Query Row).register rid q target T) ∧
      ∀ hops,
        (∀ ack, (attemptForward ⟨ov, shard⟩ rid q target hop hops T).1 = .ok ack →
          ack = ⟨true, ""⟩ ∨ ∃ impl f, ack = rejectAck (N := Node) impl (.relayFailed f)) ∧
        ∀ n r, (n, r) ≠ (target, rid) →
          (attemptForward ⟨ov, shard⟩ rid q target hop hops T).2 n r = T n r

lemma routes_of_closer {G : SimpleGraph Node} (hconn : G.Connected) {ov : Overlay Node}
    {dst : Node} (hov : ∀ n, ov.hasNode n = true)
    (h : Bfs.Closer G dst fun u => (ov.nextHop u dst).toOption) (k : ℕ) (n : Node)
    (hk : G.dist n dst = k) : Routes ov dst k n := by
  induction k generalizing n with
  | zero => exact hconn.dist_eq_zero_iff.mp hk
  | succ k ih =>
    have hne : n ≠ dst := by
      rintro rfl
      rw [SimpleGraph.dist_self] at hk
      omega
    obtain ⟨v, hv, hadj, hdist⟩ := h n hne
    refine ⟨v, toward_hop_iff.mpr ⟨hne, ?_, hadj.ne.symm, hov v⟩, ih v (by omega)⟩
    cases hn : ov.nextHop n dst with
    | error e => simp [hn, Except.toOption] at hv
    | ok m =>
      simp only [hn, Except.toOption, Option.some.injEq] at hv
      rw [hv]

lemma shortestPaths {G : SimpleGraph Node} (hconn : G.Connected) {ov : Overlay Node}
    (h : ∀ dst, Bfs.Closer G dst fun u => (ov.nextHop u dst).toOption) : ShortestPaths G ov := by
  intro src dst
  obtain ⟨hlen, hlast, hnodup, -⟩ := Bfs.follow_closer hconn (h dst) _ src rfl
  refine ⟨hlen, hlast, hnodup, ?_⟩
  have hcard : (path ov dst (G.dist src dst) src).length ≤ Fintype.card Node :=
    hnodup.length_le_card
  have h9 : Fintype.card Node = nodes.length := by decide
  unfold path at hcard
  omega

lemma register_other {Rid Query Row : Type} [DecidableEq Rid] (P : Peers Node Query Row)
    (rid : Rid) (q : Query) (target : Node) (T : Tables Node Rid Row) {n : Node} {r : Rid}
    (h : (n, r) ≠ (target, rid)) : P.register rid q target T n r = T n r := by
  unfold Peers.register
  by_cases hn : n = target
  · subst hn
    have hr : r ≠ rid := fun hr => h (by rw [hr])
    rw [Function.update_self, Function.update_of_ne hr]
  · rw [Function.update_of_ne hn]

lemma forwardsReach {ov : Overlay Node}
    (h : ∀ target, target ≠ gateway → ∃ k < 9, Routes ov target k gateway)
    (Rid Query Row : Type) [DecidableEq Rid] : ForwardsReach ov Rid Query Row := by
  intro shard rid q T target hne
  obtain ⟨k, hk, hr⟩ := h target hne
  cases k with
  | zero => exact absurd hr (Ne.symm hne)
  | succ k =>
    obtain ⟨hop, hd, hr'⟩ := hr
    obtain ⟨-, hn, -, hh⟩ := toward_hop_iff.mp hd
    refine ⟨hop, hn, hh, ?_, fun hops => ⟨fun ack hack => ?_, fun n r hnr => ?_⟩⟩
    · have hcar : Carried ov target (fun _ => .delivered) 1 8 hop :=
        ⟨k, by omega, hr', fun _ _ => trivial⟩
      obtain ⟨ack, hack, -, hdel⟩ := forwardQuery_routed ⟨ov, shard⟩ rid q target
        (fun _ => .delivered) 8 1 T hr' (by omega)
      refine Prod.ext ?_ (forwardQuery_carried ⟨ov, shard⟩ rid q target _ T hcar)
      rw [← hdel fun _ _ => rfl]
      exact hack
    · obtain ⟨ack', hack', hkind, -⟩ := forwardQuery_routed ⟨ov, shard⟩ rid q target
        hops 8 1 T hr' (by omega)
      unfold attemptForward rpc at hack
      cases hx : hops 0 with
      | delivered =>
        rw [hx] at hack
        obtain rfl : ack' = ack := Except.ok.inj (hack'.symm.trans hack)
        exact hkind
      | requestLost f => rw [hx] at hack; cases hack
      | replyLost f => rw [hx] at hack; cases hack
    · have hrun : (forwardQuery ⟨ov, shard⟩ rid q target hops 8 1 hop T).2 n r = T n r := by
        by_cases hc : Carried ov target hops 1 8 hop
        · rw [forwardQuery_carried ⟨ov, shard⟩ rid q target hops T hc]
          exact register_other _ rid q target T hnr
        · rw [forwardQuery_not_carried ⟨ov, shard⟩ rid q target hops T hc]
      unfold attemptForward rpc
      cases hops 0 with
      | delivered => exact hrun
      | requestLost f => rfl
      | replyLost f => exact hrun

/-- **The generated tables forward along shortest paths and within the time to live**, for
every edge set the generator accepts. -/
theorem generated_forwarding (edges : List (Node × Node)) (implMap : Node → Impl)
    (h : validateConnectivity (buildAdj edges) = .ok ()) :
    ∃ ov, emitOverlay edges implMap = .ok ov ∧ ShortestPaths (edgeGraph edges) ov ∧
      ∀ (Rid Query Row : Type) [DecidableEq Rid], ForwardsReach ov Rid Query Row := by
  have hconn := connected_of_validate h
  obtain ⟨ov, hov, hnode, -⟩ := emitOverlay_ok implMap h
  have hcloser := closer h hov
  have hshort := shortestPaths hconn hcloser
  refine ⟨ov, hov, hshort, fun Rid Query Row _ => forwardsReach (fun target _ => ?_) _ _ _⟩
  have h8 := (hshort gateway target).2.2.2
  have h9 : nodes.length = 9 := rfl
  exact ⟨_, by omega, routes_of_closer hconn hnode (hcloser target) _ gateway rfl⟩

def chainEdges : List (Node × Node) :=
  [(.A, .B), (.B, .C), (.C, .D), (.D, .E), (.E, .F), (.F, .G), (.G, .H), (.H, .I)]

theorem generated_forwarding_chain :
    validateConnectivity (buildAdj chainEdges) = .ok () ∧
    ∃ ov, emitOverlay chainEdges (fun _ => .cpp) = .ok ov ∧
      ShortestPaths (edgeGraph chainEdges) ov ∧
      ∀ (Rid Query Row : Type) [DecidableEq Rid], ForwardsReach ov Rid Query Row :=
  ⟨by decide, generated_forwarding chainEdges (fun _ => .cpp) (by decide)⟩

end Mini2.GeneratedRoutes
