import Mini2.EmitYaml
import Mini2.OverlayLines

/-!
The loader reads back what the generator writes, also when rows of the routing table are put in
block form.
-/

namespace Mini2.OverlayRoundTrip

open Mini2.Cuts Mini2.SortedMap Mini2.Topology Mini2.OverlayYaml Mini2.EmitYaml

/-! ### What is written, and what is to be read -/

def OneLine (l : String) : Prop := '\n' ∉ l.toList

/-- The assignment is by tokens, and what is printed of a latency is no line of its own. -/
structure Tokens (args : Args) : Prop where
  hostMap : ∀ n, Token (args.hostMap n).toList
  implMap : ∀ n, Token (args.implMap n).toList
  teamMap : ∀ n, Token (args.teamMap n).toList
  realHosts : ∀ h v, args.realHosts h = some v → Token v.toList
  inter : OneLine args.interHostLatencyMs
  intra : OneLine args.intraHostLatencyMs

/-- A line with nothing but blanks in front of a comment, if it has one. -/
def Filler (l : String) : Prop :=
  OneLine l ∧ ∀ c ∈ l.toList.takeWhile (· != '#'), isSpace c = true

/-- The lines of a row at indent 4, blank and comment lines between them. -/
inductive Block : List (Node × Node) → List String → Prop
  | nil : Block [] []
  | filler {row : List (Node × Node)} {l : String} {ls : List String} (hl : Filler l)
      (h : Block row ls) : Block row (l :: ls)
  | entry {dst hop : Node} {row : List (Node × Node)} {ls : List String} (h : Block row ls) :
      Block ((dst, hop) :: row) (("    " ++ dst.name ++ ": " ++ hop.name) :: ls)

/-- A row of the routing table, in flow form or in block form. -/
inductive RowForm (src : Node) (row : List (Node × Node)) : List String → Prop
  | flow : RowForm src row [rowLine src row]
  | block {ls : List String} (h : Block row ls) : RowForm src row (("  " ++ src.name ++ ":") :: ls)

/-- The row of a source: `bfs_next_hop(adj, src)` for every node. -/
def rowOf (edges : List (Node × Node)) (src : Node) : List (Node × Node) :=
  nodes.map fun dst => (dst, hopOf edges src dst)

def specOf (args : Args) (n : Node) : NodeSpec :=
  { name := n.name
    host := host args n
    port := port n
    team := args.teamMap n
    role := role n
    impl := args.implMap n
    virtualHost := args.hostMap n }

/-- The overlay has what the generator was given and computed. -/
structure ReadsBack (args : Args) (edges : List (Node × Node)) (ov : Overlay) : Prop where
  nodes : ov.nodes = nodes.map fun n => (n.name, specOf args n)
  routing : ov.routing = Topology.nodes.map fun src =>
    (src.name, (rowOf edges src).map fun p => (p.1.name, p.2.name))
  edges : ov.edges = (canonicalEdges edges).map fun e => (e.1.name, e.2.name)
  dataOwners : ov.dataOwners = Topology.dataOwners.map Node.name
  chunking : ov.chunking =
    { initialRows := 64, minRows := 16, maxRows := 4096, targetChunkMs := 25 }
  scheduler : ov.scheduler = { mode := "weighted_round_robin", maxConcurrentRequests := 32 }

/-! ### Tokens -/

lemma token_name (n : Node) : Token n.name.toList := by cases n <;> decide

lemma token_port (n : Node) : Token (toString (port n)).toList := by cases n <;> decide

lemma atoi_port (n : Node) : atoi (Nat.toDigits 10 (port n)) = port n := by
  cases n <;> decide

lemma token_role (n : Node) : Token (role n).toList := by cases n <;> decide

lemma token_host {args : Args} (hargs : Tokens args) (n : Node) : Token (host args n).toList := by
  unfold host
  cases h : args.realHosts (args.hostMap n) with
  | none => decide
  | some v => exact hargs.realHosts _ v h

/-! ### The lines of the sections -/

lemma blanks_two : Blanks [' ', ' '] := by simp [Blanks, isSpace]

variable {args : Args} {edges : List (Node × Node)}

def nodeEntries (args : Args) (n : Node) : List (String × String) :=
  [("host", host args n), ("port", toString (port n)), ("team", args.teamMap n),
    ("role", role n), ("impl", args.implMap n), ("virtual_host", args.hostMap n)]

def written (kvs : List (String × String)) : List (Line × Line) :=
  kvs.map fun p => (p.1.toList, p.2.toList)

lemma parseFlowMap_written {kvs : List (String × String)} (hne : kvs ≠ [])
    (hkvs : ∀ p ∈ kvs, Token p.1.toList ∧ Token p.2.toList) :
    parseFlowMap (flowText (written kvs)) = .ok (setAll [] kvs) := by
  have hwritten : ∀ p ∈ written kvs, Token p.1 ∧ Token p.2 := by
    intro p hp
    obtain ⟨q, hq, rfl⟩ := List.mem_map.mp hp
    exact hkvs q hq
  have hne' : written kvs ≠ [] := fun h => hne (List.map_eq_nil_iff.mp h)
  rw [parseFlowMap_flowText hne' hwritten, written, List.map_map]
  simp [Function.comp_def]

lemma nodeLine_toList (n : Node) : (EmitYaml.nodeLine args n).toList =
    [' ', ' '] ++ (n.name.toList ++ ':' :: ([' '] ++ flowText (written (nodeEntries args n)))) := by
  unfold EmitYaml.nodeLine nodeEntries
  generalize toString (port n) = p
  generalize host args n = h
  generalize role n = r
  generalize n.name = name
  simp [flowText, written, List.intercalate_cons_cons]

lemma token_nodeEntries (hargs : Tokens args) (n : Node) :
    ∀ p ∈ nodeEntries args n, Token p.1.toList ∧ Token p.2.toList := by
  have hkeys : ∀ k ∈ ["host", "port", "team", "role", "impl", "virtual_host"],
      Token k.toList := by decide
  intro p hp
  refine ⟨hkeys p.1 (List.mem_map_of_mem hp), ?_⟩
  simp only [nodeEntries, List.mem_cons, List.not_mem_nil, or_false] at hp
  rcases hp with rfl | rfl | rfl | rfl | rfl | rfl
  · exact token_host hargs n
  · exact token_port n
  · exact hargs.teamMap n
  · exact token_role n
  · exact hargs.implMap n
  · exact hargs.hostMap n

lemma nodeLine_read (hargs : Tokens args) (n : Node) (m : List (String × NodeSpec)) :
    OverlayYaml.nodeLine m (EmitYaml.nodeLine args n).toList =
      .ok (insertKey n.name (specOf args n) m) := by
  have hhost : args.hostMap n ≠ "" := by
    intro h
    have htoken := hargs.hostMap n
    rw [h] at htoken
    exact htoken.1 rfl
  have hnodup : ((nodeEntries args n).map Prod.fst).Nodup := by
    have hkeys : ["host", "port", "team", "role", "impl", "virtual_host"].Nodup := by decide
    exact hkeys
  have hget : ∀ k, (setAll [] (nodeEntries args n)).lookup k = (nodeEntries args n).lookup k := by
    intro k
    rw [lookup_setAll hnodup]
    simp
  rw [nodeLine_toList, OverlayYaml.nodeLine, sides_eq (token_name n) blanks_two,
    trim_flowText blanks_space]
  dsimp only
  have hne : nodeEntries args n ≠ [] := List.cons_ne_nil _ _
  have hparse := parseFlowMap_written hne (token_nodeEntries hargs n)
  rw [hparse]
  simp only [bind, Except.bind, pure, Except.pure, hget]
  simp [nodeEntries, List.lookup_cons, specOf, hhost, atoi_port]

lemma edgeLine_toList (e : Node × Node) : (EmitYaml.edgeLine e).toList =
    [' ', ' '] ++ '-' :: ([' '] ++ seqText [e.1.name.toList, e.2.name.toList]) := by
  simp [EmitYaml.edgeLine, seqText, List.intercalate_cons_cons]

lemma edgeLine_read (e : Node × Node) :
    OverlayYaml.edgeLine (EmitYaml.edgeLine e).toList = some (e.1.name, e.2.name) := by
  have hseq : parseFlowSeq ([' '] ++ seqText [e.1.name.toList, e.2.name.toList]) =
      [e.1.name.toList, e.2.name.toList].map String.ofList := by
    refine parseFlowSeq_seqText (List.cons_ne_nil _ _) (fun t ht => ?_) (by simp)
    simp only [List.mem_cons, List.not_mem_nil, or_false] at ht
    rcases ht with rfl | rfl
    · exact token_name _
    · exact token_name _
  have hdrop : ([' ', ' '] ++ '-' :: ([' '] ++ seqText [e.1.name.toList, e.2.name.toList])).drop
      ([' ', ' '].length + 1) = [' '] ++ seqText [e.1.name.toList, e.2.name.toList] := rfl
  rw [edgeLine_toList, OverlayYaml.edgeLine, find_append (by simp), Option.bind_some, hdrop, hseq]
  simp

def rowEntries (row : List (Node × Node)) : List (String × String) :=
  row.map fun p => (p.1.name, p.2.name)

lemma rowLine_toList (src : Node) (row : List (Node × Node)) : (rowLine src row).toList =
    [' ', ' '] ++ (src.name.toList ++ ':' :: ([' '] ++ flowText (written (rowEntries row)))) := by
  simp [rowLine, flowText, written, rowEntries, Function.comp_def]

lemma token_rowEntries (row : List (Node × Node)) :
    ∀ p ∈ rowEntries row, Token p.1.toList ∧ Token p.2.toList := by
  intro p hp
  obtain ⟨q, -, rfl⟩ := List.mem_map.mp hp
  exact ⟨token_name _, token_name _⟩

/-! ### Rows -/

/-- What the loader sees of the lines. -/
def seen (ls : List String) : List Line := ls.map fun l => clean l.toList

lemma seen_append (a b : List String) : seen (a ++ b) = seen a ++ seen b := List.map_append

lemma blanks_clean {l : String} (hl : Filler l) : Blanks (clean l.toList) := by
  intro c hc
  have hprefix : c ∈ stripComment l.toList :=
    (List.rdropWhile_prefix (p := fun c => c == '\r' || c == '\n' || c == ' ')
      (l := stripComment l.toList)).subset hc
  exact hl.2 c hprefix

lemma indent_toList (src : Node) : ("  " ++ src.name ++ ":").toList =
    [' ', ' '] ++ (src.name.toList ++ ':' :: []) := by
  simp

lemma clean_entry (dst hop : Node) :
    clean ("    " ++ dst.name ++ ": " ++ hop.name).toList =
      [' ', ' ', ' ', ' '] ++ (dst.name.toList ++ ':' :: ' ' :: (hop.name.toList ++ [])) := by
  have hclear : Clear ([' ', ' ', ' ', ' '] ++ (dst.name.toList ++ [':', ' '])) :=
    clear_append (by simp [Clear]) (clear_append (token_name dst).clear (by simp [Clear]))
  have hclean := clean_token hclear (token_name hop)
  simpa using hclean

lemma block_entries {row : List (Node × Node)} {ls : List String} (h : Block row ls) :
    ((seen ls).filter (!blank ·)).filterMap entry = rowEntries row := by
  induction h with
  | nil => rfl
  | @filler row l ls hl h ih =>
    have hblank : blank (clean l.toList) = true := blank_of_blanks (blanks_clean hl)
    rw [seen, List.map_cons, List.filter_cons_of_neg (by simp [hblank])]
    exact ih
  | @entry dst hop row ls h ih =>
    have hblank : blank (clean ("    " ++ dst.name ++ ": " ++ hop.name).toList) = false := by
      rw [clean_entry]
      exact blank_false (c := ':') (by simp) rfl
    have hentry : entry (clean ("    " ++ dst.name ++ ": " ++ hop.name).toList) =
        some (dst.name, hop.name) := by
      rw [clean_entry, entry_eq (token_name dst) (token_name hop) (by simp [Blanks, isSpace])
        blanks_nil, String.ofList_toList, String.ofList_toList]
    rw [seen, List.map_cons, List.filter_cons_of_pos (by rw [hblank]; rfl),
      List.filterMap_cons_some hentry]
    exact congrArg _ ih

lemma child_entry (dst hop : Node) :
    child 4 (clean ("    " ++ dst.name ++ ": " ++ hop.name).toList) = true := by
  have hlead := (token_name dst).leadingSpaces_eq 4 (':' :: ' ' :: (hop.name.toList ++ []))
  rw [clean_entry, child, Bool.or_eq_true, decide_eq_true_eq]
  exact .inr hlead.ge

lemma block_child {row : List (Node × Node)} {ls : List String} (h : Block row ls) :
    ∀ l ∈ seen ls, child 4 l = true := by
  induction h with
  | nil => exact List.forall_mem_nil _
  | filler hl h ih =>
    refine List.forall_mem_cons.mpr ⟨?_, ih⟩
    rw [child, blank_of_blanks (blanks_clean hl), Bool.true_or]
  | entry h ih => exact List.forall_mem_cons.mpr ⟨child_entry _ _, ih⟩

/-- What begins behind a block. -/
def Outside (ls : List Line) : Prop := ∀ l ∈ ls.head?, child 4 l = false

lemma head_row (src : Node) (body : Line) :
    (blank ([' ', ' '] ++ (src.name.toList ++ ':' :: body)) ||
      leadingSpaces ([' ', ' '] ++ (src.name.toList ++ ':' :: body)) != 2) = false := by
  have hlead : leadingSpaces ([' ', ' '] ++ (src.name.toList ++ ':' :: body)) = 2 :=
    (token_name src).leadingSpaces_eq 2 (':' :: body)
  rw [blank_false (c := ':') (by simp) rfl, hlead]
  rfl

lemma routingRows_blank {m : List (String × List (String × String))} {l : Line}
    (hl : blank l = true) (ls : List Line) : routingRows m (l :: ls) = routingRows m ls := by
  rw [routingRows, if_pos (by rw [hl, Bool.true_or])]

lemma routingRows_flow (m : List (String × List (String × String))) (src : Node)
    {row : List (Node × Node)} (hne : row ≠ []) (ls : List Line) :
    routingRows m ((rowLine src row).toList :: ls) =
      routingRows (insertKey src.name (setAll [] (rowEntries row)) m) ls := by
  have hhead := head_row src ([' '] ++ flowText (written (rowEntries row)))
  have hbrace : (flowText (written (rowEntries row))).head? = some '\x7b' := rfl
  have hne' : rowEntries row ≠ [] := fun h => hne (List.map_eq_nil_iff.mp h)
  rw [rowLine_toList, routingRows, if_neg (by rw [hhead]; exact Bool.false_ne_true),
    sides_eq (token_name src) blanks_two, trim_flowText blanks_space]
  dsimp only
  rw [if_pos hbrace, parseFlowMap_written hne' (token_rowEntries row), String.ofList_toList]
  rfl

lemma routingRows_block (m : List (String × List (String × String))) (src : Node)
    {row : List (Node × Node)} {ls : List String} (h : Block row ls) {bs rest : List Line}
    (hbs : ∀ l ∈ bs, blank l = true) (hrest : Outside rest) :
    routingRows m (("  " ++ src.name ++ ":").toList :: (seen ls ++ (bs ++ rest))) =
      routingRows (insertKey src.name (setAll [] (rowEntries row)) m) rest := by
  have hhead := head_row src []
  have hchild : ∀ l ∈ seen ls ++ bs, child 4 l = true := by
    intro l hl
    rcases List.mem_append.mp hl with hl | hl
    · exact block_child h l hl
    · rw [child, hbs l hl, Bool.true_or]
  have hfilter : bs.filter (!blank ·) = [] :=
    List.filter_eq_nil_iff.mpr fun l hl => by simp [hbs l hl]
  have hrow : blockRow (seen ls ++ bs) = setAll [] (rowEntries row) := by
    rw [blockRow, List.filter_append, hfilter, List.append_nil, block_entries h]
  rw [indent_toList, routingRows, if_neg (by rw [hhead]; exact Bool.false_ne_true),
    sides_eq (token_name src) blanks_two, trim_blanks blanks_nil, ← List.append_assoc]
  dsimp only
  rw [if_neg (by simp), takeWhile_append hchild hrest, dropWhile_append hchild hrest, hrow,
    String.ofList_toList]

lemma clear_written {kvs : List (String × String)}
    (hkvs : ∀ p ∈ kvs, Token p.1.toList ∧ Token p.2.toList) : Clear (flowText (written kvs)) := by
  refine clear_flowText fun p hp => ?_
  obtain ⟨q, hq, rfl⟩ := List.mem_map.mp hp
  exact hkvs q hq

lemma clean_keyed (n : Node) {kvs : List (String × String)}
    (hkvs : ∀ p ∈ kvs, Token p.1.toList ∧ Token p.2.toList) :
    Clear ([' ', ' '] ++ (n.name.toList ++ ':' :: ([' '] ++ flowText (written kvs)))) ∧
      clean ([' ', ' '] ++ (n.name.toList ++ ':' :: ([' '] ++ flowText (written kvs)))) =
        [' ', ' '] ++ (n.name.toList ++ ':' :: ([' '] ++ flowText (written kvs))) := by
  have hclear : Clear ([' ', ' '] ++ (n.name.toList ++ ':' ::
      ([' '] ++ flowText (written kvs)))) := by
    refine clear_append (by simp [Clear]) (clear_append (token_name n).clear ?_)
    exact clear_cons (by decide) (clear_append (by simp [Clear]) (clear_written hkvs))
  refine ⟨hclear, clean_eq hclear fun c hc => ?_⟩
  have hend : ∃ s, [' ', ' '] ++ (n.name.toList ++ ':' :: ([' '] ++ flowText (written kvs))) =
      s ++ ['\x7d'] := by
    rw [flowText_eq, ← List.append_assoc [' '], ← List.cons_append, ← List.append_assoc,
      ← List.append_assoc]
    exact ⟨_, rfl⟩
  obtain ⟨s, hs⟩ := hend
  rw [hs, List.getLast?_concat] at hc
  obtain rfl := Option.some.inj hc
  rfl

lemma clean_rowLine (src : Node) (row : List (Node × Node)) :
    clean (rowLine src row).toList = (rowLine src row).toList := by
  rw [rowLine_toList]
  exact (clean_keyed src (token_rowEntries row)).2

lemma clean_indent (src : Node) :
    clean ("  " ++ src.name ++ ":").toList = ("  " ++ src.name ++ ":").toList := by
  cases src <;> rfl

lemma outside_row {src : Node} {row : List (Node × Node)} {ls : List String}
    (h : RowForm src row ls) (rest : List Line) : Outside (seen ls ++ rest) := by
  have hchild : ∀ body, child 4 ([' ', ' '] ++ (src.name.toList ++ ':' :: body)) = false := by
    intro body
    have hhead := head_row src body
    rw [Bool.or_eq_false_iff, bne_eq_false_iff_eq] at hhead
    rw [child, hhead.1, hhead.2]
    rfl
  intro l hl
  cases h with
  | flow =>
    obtain rfl : clean (rowLine src row).toList = l := Option.some.inj hl
    rw [clean_rowLine, rowLine_toList]
    exact hchild _
  | block h =>
    obtain rfl : clean ("  " ++ src.name ++ ":").toList = l := Option.some.inj hl
    rw [clean_indent, indent_toList]
    exact hchild _

/-- **The rows are read in either form.** -/
lemma rows_read {row : Node → List (Node × Node)} {rows : Node → List String}
    (hrow : ∀ src, row src ≠ []) (hrows : ∀ src, RowForm src (row src) (rows src))
    (m : List (String × List (String × String))) (ss : List Node) :
    routingRows m (seen (ss.flatMap rows) ++ [[]]) =
      .ok (setAll m (ss.map fun src => (src.name, setAll [] (rowEntries (row src))))) := by
  induction ss generalizing m with
  | nil =>
    rw [List.flatMap_nil, seen, List.map_nil, List.nil_append, routingRows_blank rfl, routingRows]
    rfl
  | cons src ss ih =>
    have hsplit : ∀ s ss, seen ((s :: ss).flatMap rows) ++ [[]] =
        seen (rows s) ++ (seen (ss.flatMap rows) ++ [[]]) := by
      intro s ss
      rw [List.flatMap_cons, seen_append, List.append_assoc]
    rw [hsplit, List.map_cons, setAll_cons, ← ih]
    have hform := hrows src
    generalize rows src = ls at hform
    cases hform with
    | flow =>
      have hline : seen [rowLine src (row src)] = [(rowLine src (row src)).toList] :=
        congrArg (· :: []) (clean_rowLine src (row src))
      rw [hline]
      exact routingRows_flow m src (hrow src) _
    | @block ls h =>
      have hhead : seen (("  " ++ src.name ++ ":") :: ls) =
          ("  " ++ src.name ++ ":").toList :: seen ls := congrArg (· :: seen ls) (clean_indent src)
      rw [hhead]
      cases ss with
      | nil =>
        -- the blank line behind the section still belongs to the block
        have hblank : blank [] = true := blank_of_blanks blanks_nil
        have hnil : seen (List.flatMap rows []) ++ [[]] = [[]] := rfl
        have hbs : ∀ l ∈ [([] : Line)], blank l = true := by simp [hblank]
        have hend : Outside [] := by simp [Outside]
        have hrest := routingRows_block m src h hbs hend
        rw [hnil, routingRows_blank hblank]
        exact hrest
      | cons next ss =>
        have hnext := outside_row (hrows next) (seen (ss.flatMap rows) ++ [[]])
        rw [← hsplit] at hnext
        exact routingRows_block m src h (List.forall_mem_nil _) hnext

/-! ### The sections -/

variable {atof : Line → ℚ} {out : Overlay} {rest : List Line}

/-- The rest of the text begins with a key. -/
def AtKey (rest : List Line) : Prop := ∀ l ∈ rest.head?, child 2 l = false

lemma seen_cons (l : String) (ls : List String) : seen (l :: ls) = clean l.toList :: seen ls := rfl

lemma atKey_cons {key : String} (hkey : Token key.toList) {s : Line} {l : String}
    (hl : clean l.toList = key.toList ++ ':' :: s) (ls : List Line) :
    AtKey (clean l.toList :: ls) := by
  intro x hx
  obtain rfl : clean l.toList = x := Option.some.inj hx
  rw [hl]
  exact child_key hkey s

lemma clean_nodeLine (hargs : Tokens args) (n : Node) :
    clean (EmitYaml.nodeLine args n).toList = (EmitYaml.nodeLine args n).toList := by
  rw [nodeLine_toList]
  exact (clean_keyed n (token_nodeEntries hargs n)).2

lemma child_keyed (n : Node) (s : Line) :
    child 2 ([' ', ' '] ++ (n.name.toList ++ ':' :: s)) = true ∧
      blank ([' ', ' '] ++ (n.name.toList ++ ':' :: s)) = false := by
  have hhead := head_row n s
  rw [Bool.or_eq_false_iff, bne_eq_false_iff_eq] at hhead
  refine ⟨?_, hhead.1⟩
  rw [child, hhead.2, Bool.or_eq_true]
  exact .inr rfl

/-- The lines of a section that are all there as they stand, and a blank line behind them. -/
lemma section_body (ls : List String) (hclean : ∀ l ∈ ls, clean l.toList = l.toList)
    (hchild : ∀ l ∈ ls, child 2 l.toList = true ∧ blank l.toList = false) :
    (∀ l ∈ seen (ls ++ [""]), child 2 l = true) ∧
      (seen (ls ++ [""])).filter (!blank ·) = ls.map String.toList := by
  have hseen : seen (ls ++ [""]) = ls.map String.toList ++ [[]] := by
    rw [seen_append, seen, List.map_congr_left hclean]
    rfl
  have hblank : blank [] = true := blank_of_blanks blanks_nil
  rw [hseen]
  constructor
  · intro l hl
    rcases List.mem_append.mp hl with hl | hl
    · obtain ⟨x, hx, rfl⟩ := List.mem_map.mp hl
      exact (hchild x hx).1
    · rw [List.mem_singleton.mp hl, child, hblank, Bool.true_or]
  · rw [List.filter_append, List.filter_eq_self.mpr, List.filter_cons_of_neg (by simp [hblank]),
      List.filter_nil, List.append_nil]
    intro l hl
    obtain ⟨x, hx, rfl⟩ := List.mem_map.mp hl
    rw [(hchild x hx).2]
    rfl

lemma parse_nodes (hargs : Tokens args) (hrest : AtKey rest) :
    parseLines atof (clean "nodes:".toList :: (seen (nodes.map (EmitYaml.nodeLine args) ++ [""]) ++
      rest)) out = parseLines atof rest
        { out with nodes := setAll out.nodes (nodes.map fun n => (n.name, specOf args n)) } := by
  obtain ⟨hchild, hlines⟩ := section_body (nodes.map (EmitYaml.nodeLine args))
    (fun l hl => by
      obtain ⟨n, -, rfl⟩ := List.mem_map.mp hl
      exact clean_nodeLine hargs n)
    (fun l hl => by
      obtain ⟨n, -, rfl⟩ := List.mem_map.mp hl
      rw [nodeLine_toList]
      exact child_keyed n _)
  have hfold : ∀ (ns : List Node) (m : List (String × NodeSpec)),
      ((ns.map (EmitYaml.nodeLine args)).map String.toList).foldlM OverlayYaml.nodeLine m =
        .ok (setAll m (ns.map fun n => (n.name, specOf args n))) := by
    intro ns
    induction ns with
    | nil => exact fun m => rfl
    | cons n ns ih =>
      intro m
      rw [List.map_cons, List.map_cons, List.foldlM_cons, nodeLine_read hargs n m]
      exact ih _
  have hkey : Token "nodes".toList := by decide
  refine parseLines_section hkey (by decide) hchild hrest ?_
  rw [applyKey, if_pos rfl, children_eq hchild hrest, hlines, hfold]
  rfl

lemma clean_edgeLine (e : Node × Node) :
    clean (EmitYaml.edgeLine e).toList = (EmitYaml.edgeLine e).toList := by
  have hclear : Clear (EmitYaml.edgeLine e).toList := by
    have h₁ := (token_name e.1).clear
    have h₂ := (token_name e.2).clear
    unfold Clear at h₁ h₂
    simp [EmitYaml.edgeLine, Clear, h₁, h₂]
  refine clean_eq hclear fun c hc => ?_
  rw [EmitYaml.edgeLine, String.toList_append, List.getLast?_append_of_ne_nil _ (by simp)] at hc
  obtain rfl := Option.some.inj hc
  rfl

lemma parse_edges (hrest : AtKey rest) :
    parseLines atof (clean "edges:".toList ::
      (seen ((canonicalEdges edges).map EmitYaml.edgeLine ++ [""]) ++ rest)) out =
        parseLines atof rest { out with
          edges := out.edges ++ (canonicalEdges edges).map fun e => (e.1.name, e.2.name) } := by
  obtain ⟨hchild, hlines⟩ := section_body ((canonicalEdges edges).map EmitYaml.edgeLine)
    (fun l hl => by
      obtain ⟨e, -, rfl⟩ := List.mem_map.mp hl
      exact clean_edgeLine e)
    (fun l hl => by
      obtain ⟨e, -, rfl⟩ := List.mem_map.mp hl
      rw [edgeLine_toList]
      refine ⟨?_, blank_false (c := '-') (by simp) rfl⟩
      rw [child, Bool.or_eq_true, decide_eq_true_eq]
      exact .inr (leadingSpaces_eq (n := 2) (by decide) _).ge)
  have hread : ((canonicalEdges edges).map EmitYaml.edgeLine |>.map String.toList).filterMap
      OverlayYaml.edgeLine = (canonicalEdges edges).map fun e => (e.1.name, e.2.name) := by
    rw [List.map_map, List.filterMap_map, ← List.filterMap_eq_map]
    exact List.filterMap_congr fun e _ => edgeLine_read e
  have hkey : Token "edges".toList := by decide
  refine parseLines_section hkey (by decide) hchild hrest ?_
  rw [applyKey, if_neg (by decide), if_pos rfl, children_eq hchild hrest, hlines, hread]

lemma child_mono {l : Line} (h : child 4 l = true) : child 2 l = true := by
  rw [child, Bool.or_eq_true, decide_eq_true_eq] at h ⊢
  exact h.imp_right fun h4 => by omega

lemma child_row {src : Node} {row : List (Node × Node)} {ls : List String}
    (h : RowForm src row ls) : ∀ l ∈ seen ls, child 2 l = true := by
  cases h with
  | flow =>
    intro l hl
    obtain rfl : l = clean (rowLine src row).toList := List.mem_singleton.mp hl
    rw [clean_rowLine, rowLine_toList]
    exact (child_keyed src _).1
  | block h =>
    have hhead : child 2 (clean ("  " ++ src.name ++ ":").toList) = true := by
      rw [clean_indent, indent_toList]
      exact (child_keyed src _).1
    exact List.forall_mem_cons.mpr ⟨hhead, fun l hl => child_mono (block_child h l hl)⟩

lemma parse_routing {row : Node → List (Node × Node)} {rows : Node → List String}
    (hrow : ∀ src, row src ≠ []) (hrows : ∀ src, RowForm src (row src) (rows src))
    (hrest : AtKey rest) :
    parseLines atof (clean "routing:".toList :: (seen (nodes.flatMap rows ++ [""]) ++ rest)) out =
      parseLines atof rest { out with
        routing := setAll out.routing
          (nodes.map fun src => (src.name, setAll [] (rowEntries (row src)))) } := by
  have hchild : ∀ l ∈ seen (nodes.flatMap rows ++ [""]), child 2 l = true := by
    intro l hl
    rw [seen_append] at hl
    rcases List.mem_append.mp hl with hl | hl
    · obtain ⟨x, hx, rfl⟩ := List.mem_map.mp hl
      obtain ⟨src, -, hx⟩ := List.mem_flatMap.mp hx
      exact child_row (hrows src) _ (List.mem_map_of_mem hx)
    · obtain rfl : l = [] := List.mem_singleton.mp hl
      rw [child, blank_of_blanks blanks_nil, Bool.true_or]
  have hsection : (seen (nodes.flatMap rows ++ [""]) ++ rest).takeWhile (child 2) =
      seen (nodes.flatMap rows) ++ [[]] := by
    rw [takeWhile_append hchild hrest, seen_append]
    rfl
  have hkey : Token "routing".toList := by decide
  refine parseLines_section hkey (by decide) hchild hrest ?_
  rw [applyKey, if_neg (by decide), if_neg (by decide), if_pos rfl, hsection,
    rows_read hrow hrows]
  rfl

lemma clean_owners :
    clean ("data_owners: [" ++ ", ".intercalate (dataOwners.map Node.name) ++ "]").toList =
      "data_owners".toList ++ ':' :: ([' '] ++ seqText (dataOwners.map fun n => n.name.toList)) := by
  decide

lemma parse_owners : parseLines atof
    (clean ("data_owners: [" ++ ", ".intercalate (dataOwners.map Node.name) ++ "]").toList ::
      clean "".toList :: rest) out =
        parseLines atof rest { out with dataOwners := dataOwners.map Node.name } := by
  have htrim : trim ([' '] ++ seqText (dataOwners.map fun n => n.name.toList)) =
      [] ++ seqText (dataOwners.map fun n => n.name.toList) := by
    decide
  have hseq : parseFlowSeq ([] ++ seqText (dataOwners.map fun n => n.name.toList)) =
      dataOwners.map Node.name := by
    have hne : (dataOwners.map fun n => n.name.toList) ≠ [] := List.cons_ne_nil _ _
    have htokens : ∀ t ∈ dataOwners.map fun n => n.name.toList, Token t := by
      intro t ht
      obtain ⟨n, -, rfl⟩ := List.mem_map.mp ht
      exact token_name n
    rw [parseFlowSeq_seqText hne htokens (List.not_mem_nil), List.map_map]
    exact List.map_congr_left fun n _ => String.ofList_toList
  have hkey : Token "data_owners".toList := by decide
  have happly : applyKey atof "data_owners".toList
      (trim ([' '] ++ seqText (dataOwners.map fun n => n.name.toList)))
      (clean "".toList :: rest) out = .ok { out with dataOwners := dataOwners.map Node.name } := by
    rw [applyKey, if_neg (by decide), if_neg (by decide), if_neg (by decide), if_pos rfl, htrim,
      if_neg (by decide), hseq]
  rw [clean_owners, parseLines_key hkey _ happly, if_pos rfl]
  exact parseLines_blank (blank_of_blanks blanks_nil)

lemma child_printed {key : String} (hkey : Token key.toList) (x : String) :
    child 2 (clean ("  " ++ key ++ ": " ++ x).toList) = true := by
  have htext : ("  " ++ key ++ ": " ++ x).toList =
      [' ', ' '] ++ (key.toList ++ [':']) ++ (' ' :: x.toList) := by simp
  have hcomment : '#' ∉ [' ', ' '] ++ (key.toList ++ [':']) := by
    have hnot : '#' ∉ key.toList := hkey.not_mem (by simp)
    simp [hnot]
  obtain ⟨w, hw⟩ := clean_append hcomment
    ⟨[' ', ' '] ++ key.toList, ':', (List.append_assoc _ _ _).symm, by decide⟩ (' ' :: x.toList)
  rw [htext, hw, child, Bool.or_eq_true, decide_eq_true_eq, List.append_assoc, List.append_assoc]
  exact .inr (hkey.leadingSpaces_eq 2 _).ge

def networkBody (args : Args) : List String :=
  ["  simulate: " ++ (if args.simulateNetwork then "true" else "false"),
    "  inter_host_latency_ms: " ++ args.interHostLatencyMs,
    "  intra_host_latency_ms: " ++ args.intraHostLatencyMs, ""]

/-- The section as it is read: the latencies are what `atof` makes of the text. -/
def readNetwork (atof : Line → ℚ) (args : Args) (nw : NetworkSim) : NetworkSim :=
  ((seen (networkBody args)).filter (!blank ·)).foldl (networkLine atof) nw

lemma parse_network (hrest : AtKey rest) :
    parseLines atof (clean "network:".toList :: (seen (networkBody args) ++ rest)) out =
      parseLines atof rest { out with network := readNetwork atof args out.network } := by
  have hchild : ∀ l ∈ seen (networkBody args), child 2 l = true := by
    have hsimulate : Token "simulate".toList := by decide
    have hinter : Token "inter_host_latency_ms".toList := by decide
    have hintra : Token "intra_host_latency_ms".toList := by decide
    have hempty : child 2 (clean "".toList) = true := by decide
    exact List.forall_mem_cons.mpr ⟨child_printed hsimulate _, List.forall_mem_cons.mpr
      ⟨child_printed hinter _, List.forall_mem_cons.mpr ⟨child_printed hintra _,
        List.forall_mem_cons.mpr ⟨hempty, List.forall_mem_nil _⟩⟩⟩⟩
  have hkey : Token "network".toList := by decide
  refine parseLines_section hkey (by decide) hchild hrest ?_
  rw [applyKey, if_neg (by decide), if_neg (by decide), if_neg (by decide),
    if_neg (by decide), if_neg (by decide), if_neg (by decide), if_pos rfl,
    children_eq hchild hrest]
  rfl

def chunkingBody : List String :=
  ["  initial_rows: 64", "  max_rows: 4096", "  min_rows: 16", "  target_chunk_ms: 25", ""]

lemma parse_chunking (hrest : AtKey rest) :
    parseLines atof (clean "chunking:".toList :: (seen chunkingBody ++ rest)) out =
      parseLines atof rest { out with
        chunking := { initialRows := 64, minRows := 16, maxRows := 4096,
                      targetChunkMs := 25 } } := by
  have hchild : ∀ l ∈ seen chunkingBody, child 2 l = true := by decide
  have hlines : (seen chunkingBody).filter (!blank ·) =
      ["  initial_rows: 64".toList, "  max_rows: 4096".toList, "  min_rows: 16".toList,
        "  target_chunk_ms: 25".toList] := by
    decide
  have hkey : Token "chunking".toList := by decide
  refine parseLines_section hkey (by decide) hchild hrest ?_
  rw [applyKey, if_neg (by decide), if_neg (by decide), if_neg (by decide), if_neg (by decide),
    if_pos rfl, children_eq hchild hrest, hlines]
  -- every field is set
  rfl

def schedulerBody : List String :=
  ["  mode: weighted_round_robin", "  max_concurrent_requests: 32"]

lemma parse_scheduler :
    parseLines atof (clean "scheduler:".toList :: seen schedulerBody) out =
      .ok { out with
        scheduler := { mode := "weighted_round_robin", maxConcurrentRequests := 32 } } := by
  have hchild : ∀ l ∈ seen schedulerBody, child 2 l = true := by decide
  have hrest : AtKey [] := by simp [AtKey]
  have hlines : (seen schedulerBody).filter (!blank ·) =
      ["  mode: weighted_round_robin".toList, "  max_concurrent_requests: 32".toList] := by
    decide
  have hkey : Token "scheduler".toList := by decide
  have happly : applyKey atof "scheduler".toList [] (seen schedulerBody ++ []) out =
      .ok { out with
        scheduler := { mode := "weighted_round_robin", maxConcurrentRequests := 32 } } := by
    rw [applyKey, if_neg (by decide), if_neg (by decide), if_neg (by decide),
      if_neg (by decide), if_neg (by decide), if_pos rfl, children_eq hchild hrest, hlines]
    rfl
  have hparse := parseLines_section hkey (by decide) hchild hrest happly
  rw [List.append_nil, parseLines] at hparse
  exact hparse

/-! ### The text -/

/-- The lines above the sections. -/
def header (name : String) (edges : List (Node × Node)) : List String :=
  ["# Auto-generated overlay: topology = " ++ name,
    "# Edges (" ++ toString (canonicalEdges edges).length ++ "): " ++
      " ".intercalate ((canonicalEdges edges).map fun e => e.1.name ++ e.2.name),
    "# Generated by py/topology/generator.py — DO NOT hand-edit.", ""]

/-- The sections, up to the newline at the end. -/
def sections (args : Args) (edges : List (Node × Node)) (rows : List String) : List String :=
  "nodes:" :: ((nodes.map (EmitYaml.nodeLine args) ++ [""]) ++
    "edges:" :: (((canonicalEdges edges).map EmitYaml.edgeLine ++ [""]) ++
      "routing:" :: ((rows ++ [""]) ++
        ("data_owners: [" ++ ", ".intercalate (dataOwners.map Node.name) ++ "]") :: "" ::
          "network:" :: (networkBody args ++
            "chunking:" :: (chunkingBody ++ "scheduler:" :: schedulerBody)))))

lemma lines_eq (name : String) (rows : List String) :
    lines args name edges rows = (header name edges ++ sections args edges rows) ++ [""] := by
  simp [lines, header, sections, networkBody, chunkingBody, schedulerBody]

lemma seen_header (name : String) : seen (header name edges) = [[], [], [], []] := by
  have hhash : ∀ x y : String, x.toList.head? = some '#' → clean (x ++ y).toList = [] := by
    intro x y hx
    obtain ⟨s, hs⟩ := List.head?_eq_some_iff.mp hx
    rw [String.toList_append, hs]
    exact clean_comment _
  simp only [header, seen, List.map_cons, List.map_nil, String.append_assoc]
  rw [hhash _ _ rfl, hhash _ _ rfl]
  rfl

def loaded (atof : Line → ℚ) (args : Args) (edges : List (Node × Node)) : Overlay :=
  { nodes := nodes.map fun n => (n.name, specOf args n)
    edges := (canonicalEdges edges).map fun e => (e.1.name, e.2.name)
    routing := nodes.map fun src => (src.name, rowEntries (rowOf edges src))
    dataOwners := dataOwners.map Node.name
    chunking := { initialRows := 64, minRows := 16, maxRows := 4096, targetChunkMs := 25 }
    scheduler := { mode := "weighted_round_robin", maxConcurrentRequests := 32 }
    network := readNetwork atof args {} }

lemma setAll_nodes {A : Type} (f : Node → A) :
    setAll [] (nodes.map fun n => (n.name, f n)) = nodes.map fun n => (n.name, f n) := by
  have hsorted : nodes.Pairwise fun m n => m.name < n.name := by decide
  exact setAll_eq (List.Perm.refl _) (List.pairwise_map.mpr hsorted)

lemma seen_section (key : String) (body rest : List String) :
    seen (key :: (body ++ rest)) = clean key.toList :: (seen body ++ seen rest) := by
  rw [seen_cons, seen_append]

lemma parse_sections (hargs : Tokens args) {rows : Node → List String}
    (hrows : ∀ src, RowForm src (rowOf edges src) (rows src)) :
    parseLines atof (seen (sections args edges (nodes.flatMap rows))) {} =
      .ok (loaded atof args edges) := by
  have hedges : Token "edges".toList := by decide
  have hrouting : Token "routing".toList := by decide
  have howners : Token "data_owners".toList := by decide
  have hchunking : Token "chunking".toList := by decide
  have hscheduler : Token "scheduler".toList := by decide
  have hrow : ∀ src, rowOf edges src ≠ [] := fun src => List.cons_ne_nil _ _
  have hset : ∀ src, setAll [] (rowEntries (rowOf edges src)) = rowEntries (rowOf edges src) := by
    intro src
    rw [rowEntries, rowOf, List.map_map]
    exact setAll_nodes _
  simp only [sections, seen_section]
  rw [seen_cons _ (_ :: _), seen_cons _ (_ :: _), seen_section, seen_section, seen_cons]
  rw [parse_nodes hargs (atKey_cons hedges rfl _),
    parse_edges (atKey_cons hrouting rfl _),
    parse_routing hrow hrows (atKey_cons howners clean_owners _),
    parse_owners, parse_network (atKey_cons (l := "chunking:") hchunking rfl _),
    parse_chunking (atKey_cons (l := "scheduler:") hscheduler rfl _), parse_scheduler]
  simp only [loaded, setAll_nodes, hset, List.nil_append]

/-! ### No line has an end in it -/

lemma oneLine_append {x y : String} (hx : OneLine x) (hy : OneLine y) : OneLine (x ++ y) := by
  unfold OneLine
  rw [String.toList_append, List.mem_append, not_or]
  exact ⟨hx, hy⟩

lemma oneLine_nat (n : ℕ) : OneLine (toString n) := by
  intro h
  have hdigits : '\n' ∈ Nat.toDigits 10 n := by simpa using h
  have hdigit := Nat.isDigit_of_mem_toDigits (by omega) (by omega) hdigits
  exact Bool.noConfusion hdigit

lemma oneLine_name (n : Node) : OneLine n.name := (token_name n).clear.2

lemma oneLine_header {name : String} (hname : OneLine name) :
    ∀ l ∈ header name edges, OneLine l := by
  have hpairs : OneLine (" ".intercalate
      ((canonicalEdges edges).map fun e => e.1.name ++ e.2.name)) := by
    rw [OneLine, String.toList_intercalate, List.map_map]
    refine (clear_intercalate (by simp [Clear]) fun x hx => ?_).2
    obtain ⟨e, -, rfl⟩ := List.mem_map.mp hx
    have hpair := clear_append (token_name e.1).clear (token_name e.2).clear
    simpa using hpair
  have htopology : OneLine "# Auto-generated overlay: topology = " := by simp [OneLine]
  have hedges : OneLine "# Edges (" := by simp [OneLine]
  have hcolon : OneLine "): " := by simp [OneLine]
  have hgenerated : OneLine "# Generated by py/topology/generator.py — DO NOT hand-edit." := by
    simp [OneLine]
  have hcount := oneLine_append (oneLine_append hedges
    (oneLine_nat (canonicalEdges edges).length)) hcolon
  exact List.forall_mem_cons.mpr ⟨oneLine_append htopology hname, List.forall_mem_cons.mpr
    ⟨oneLine_append hcount hpairs, List.forall_mem_cons.mpr ⟨hgenerated,
      List.forall_mem_cons.mpr ⟨List.not_mem_nil, List.forall_mem_nil _⟩⟩⟩⟩

lemma oneLine_block {row : List (Node × Node)} {ls : List String} (h : Block row ls) :
    ∀ l ∈ ls, OneLine l := by
  induction h with
  | nil => exact List.forall_mem_nil _
  | filler hl h ih => exact List.forall_mem_cons.mpr ⟨hl.1, ih⟩
  | @entry dst hop row ls h ih =>
    refine List.forall_mem_cons.mpr ⟨?_, ih⟩
    have hblank : OneLine "    " := by simp [OneLine]
    have hcolon : OneLine ": " := by simp [OneLine]
    exact oneLine_append (oneLine_append (oneLine_append hblank (oneLine_name dst)) hcolon)
      (oneLine_name hop)

lemma oneLine_row {src : Node} {row : List (Node × Node)} {ls : List String}
    (h : RowForm src row ls) : ∀ l ∈ ls, OneLine l := by
  cases h with
  | flow =>
    intro l hl
    obtain rfl : l = rowLine src row := List.mem_singleton.mp hl
    rw [OneLine, rowLine_toList]
    exact (clean_keyed src (token_rowEntries row)).1.2
  | block h =>
    refine List.forall_mem_cons.mpr ⟨?_, oneLine_block h⟩
    have hblank : OneLine "  " := by simp [OneLine]
    have hcolon : OneLine ":" := by simp [OneLine]
    exact oneLine_append (oneLine_append hblank (oneLine_name src)) hcolon

lemma oneLine_network (hargs : Tokens args) : ∀ l ∈ networkBody args, OneLine l := by
  have hsimulate : OneLine (if args.simulateNetwork then "true" else "false") := by
    cases args.simulateNetwork <;> simp [OneLine]
  have hkey : OneLine "  simulate: " := by simp [OneLine]
  have hinter : OneLine "  inter_host_latency_ms: " := by simp [OneLine]
  have hintra : OneLine "  intra_host_latency_ms: " := by simp [OneLine]
  exact List.forall_mem_cons.mpr ⟨oneLine_append hkey hsimulate, List.forall_mem_cons.mpr
    ⟨oneLine_append hinter hargs.inter, List.forall_mem_cons.mpr
      ⟨oneLine_append hintra hargs.intra,
        List.forall_mem_cons.mpr ⟨List.not_mem_nil, List.forall_mem_nil _⟩⟩⟩⟩

lemma oneLine_sections (hargs : Tokens args) {rows : Node → List String}
    (hrows : ∀ src, RowForm src (rowOf edges src) (rows src)) :
    ∀ l ∈ sections args edges (nodes.flatMap rows), OneLine l := by
  have hnodes : ∀ l ∈ nodes.map (EmitYaml.nodeLine args), OneLine l := by
    intro l hl
    obtain ⟨n, -, rfl⟩ := List.mem_map.mp hl
    rw [OneLine, nodeLine_toList]
    exact (clean_keyed n (token_nodeEntries hargs n)).1.2
  have hedges : ∀ l ∈ (canonicalEdges edges).map EmitYaml.edgeLine, OneLine l := by
    intro l hl
    obtain ⟨e, -, rfl⟩ := List.mem_map.mp hl
    have hdash : OneLine "  - [" := by simp [OneLine]
    have hcomma : OneLine ", " := by simp [OneLine]
    have hclose : OneLine "]" := by simp [OneLine]
    exact oneLine_append (oneLine_append (oneLine_append (oneLine_append hdash
      (oneLine_name _)) hcomma) (oneLine_name _)) hclose
  have hrouting : ∀ l ∈ nodes.flatMap rows, OneLine l := by
    intro l hl
    obtain ⟨src, -, hl⟩ := List.mem_flatMap.mp hl
    exact oneLine_row (hrows src) l hl
  have hchunking : ∀ l ∈ chunkingBody, OneLine l := by simp [chunkingBody, OneLine]
  have hscheduler : ∀ l ∈ schedulerBody, OneLine l := by simp [schedulerBody, OneLine]
  have howners : OneLine ("data_owners: [" ++ ", ".intercalate (dataOwners.map Node.name) ++
      "]") := by
    unfold OneLine
    decide
  have hnetwork := oneLine_network hargs
  have hkeys : ∀ l ∈ ["nodes:", "edges:", "routing:", "network:", "chunking:", "scheduler:", ""],
      OneLine l := by
    simp [OneLine]
  intro l hl
  simp only [sections, List.mem_cons, List.mem_append, List.not_mem_nil, or_false] at hl
  grind

lemma getLines_join {ls : List String} (hls : ∀ l ∈ ls, OneLine l) :
    (getLines (join (ls ++ [""])).toList).map clean = seen ls := by
  have hitems : ∀ l ∈ ls.map String.toList ++ [[]], '\n' ∉ l := by
    intro l hl
    rcases List.mem_append.mp hl with hl | hl
    · obtain ⟨x, hx, rfl⟩ := List.mem_map.mp hl
      exact hls x hx
    · rw [List.mem_singleton.mp hl]
      exact List.not_mem_nil
  have hsplit : (join (ls ++ [""])).toList.splitOn '\n' = ls.map String.toList ++ [[]] := by
    rw [join, String.toList_intercalate, List.map_append]
    exact List.splitOn_intercalate '\n' hitems (by simp)
  rw [getLines, hsplit, if_pos List.getLast?_concat, List.dropLast_concat, List.map_map]
  rfl

/-! ### The environment -/

variable {getenv : String → Option (List Char)}

lemma applyEnvOverrides_none (henv : ∀ s, getenv ("MINI2_" ++ s) = none) (o : Overlay) :
    applyEnvOverrides getenv o = o := by
  have hhost : ∀ n, getenv ("MINI2_HOST_" ++ n) = none := fun n => by
    have h := henv ("HOST_" ++ n)
    rwa [← String.append_assoc] at h
  have hport : ∀ n, getenv ("MINI2_PORT_" ++ n) = none := fun n => by
    have h := henv ("PORT_" ++ n)
    rwa [← String.append_assoc] at h
  unfold applyEnvOverrides
  simp only [hhost, hport, Prod.mk.eta, List.map_id']

lemma overrideChunking_none (henv : ∀ s, getenv ("MINI2_" ++ s) = none) (ch : Chunking) :
    overrideChunking getenv ch = ch := by
  have hinitial : getenv "MINI2_INITIAL_ROWS" = none := henv "INITIAL_ROWS"
  have hmax : getenv "MINI2_MAX_ROWS" = none := henv "MAX_ROWS"
  have htarget : getenv "MINI2_TARGET_CHUNK_MS" = none := henv "TARGET_CHUNK_MS"
  have hnone : ∀ {x : String} (d : ℤ), getenv x = none → override getenv x d = d := by
    intro x d h
    rw [override, h]
  rw [overrideChunking, hnone _ hinitial, hnone _ hmax, hnone _ htarget]

/-- The file that is meant when the environment names none. -/
def fileOf (path : String) : String := if path = "" then "config/overlay.yaml" else path

lemma resolve_none (henv : ∀ s, getenv ("MINI2_" ++ s) = none) (path : String) :
    resolve getenv path = fileOf path := by
  have hoverlay : getenv "MINI2_OVERLAY" = none := henv "OVERLAY"
  rw [resolve, fileOf, hoverlay]
  by_cases hpath : path = ""
  · rw [if_pos hpath, if_pos hpath]
    rfl
  · rw [if_neg hpath, if_neg hpath]

/-! ### Round trip -/

/-- The files are such that the loader reads the text. -/
def loads (files : String → Option (List Char)) (path text : String) : Prop :=
  files (fileOf path) = some text.toList

lemma loadOverlay_lines (hargs : Tokens args) {name : String} (hname : OneLine name)
    {rows : Node → List String} (hrows : ∀ src, RowForm src (rowOf edges src) (rows src))
    (henv : ∀ s, getenv ("MINI2_" ++ s) = none) {files : String → Option (List Char)}
    {path : String}
    (hfile : loads files path (join (lines args name edges (nodes.flatMap rows)))) :
    loadOverlay getenv atof files path = .ok (loaded atof args edges) := by
  have hoverlay : parseLines atof ((getLines
      (join (lines args name edges (nodes.flatMap rows))).toList).map clean) {} =
        .ok (loaded atof args edges) := by
    have hlines : ∀ l ∈ header name edges ++ sections args edges (nodes.flatMap rows),
        OneLine l := by
      intro l hl
      rcases List.mem_append.mp hl with hl | hl
      · exact oneLine_header hname l hl
      · exact oneLine_sections hargs hrows l hl
    have hblank : blank [] = true := blank_of_blanks blanks_nil
    rw [lines_eq, getLines_join hlines, seen_append, seen_header]
    simp only [List.cons_append, List.nil_append, parseLines_blank hblank]
    exact parse_sections hargs hrows
  have hnodes : (loaded atof args edges).nodes ≠ [] := List.cons_ne_nil _ _
  rw [loads, ← resolve_none henv] at hfile
  rw [loadOverlay, hfile]
  dsimp only
  rw [hoverlay]
  dsimp only
  rw [applyEnvOverrides_none henv, overrideChunking_none henv, if_neg hnodes]

lemma emitYaml_eq (hconn : (edgeGraph edges).Connected) (name : String) :
    emitYaml args name edges = .ok (join (lines args name edges
      (nodes.flatMap fun src => [rowLine src (rowOf edges src)]))) := by
  have hrouting : (nodes.mapM fun src => (emitRow (buildAdj edges) src).map (Prod.mk src)) =
      .ok (nodes.map fun src => (src, rowOf edges src)) := by
    refine mapM_ok nodes fun src _ => ?_
    rw [emitRow_eq hconn src]
    rfl
  simp only [emitYaml, validate_of_connected hconn, hrouting]
  rfl

/-- **The loader reads back what the generator writes**, whichever rows of the routing table are
put in block form. -/
theorem loadOverlay_emitYaml (args : Args) (hargs : Tokens args) (name : String)
    (hname : OneLine name) (edges : List (Node × Node)) (hconn : (edgeGraph edges).Connected)
    (getenv : String → Option (List Char)) (henv : ∀ s, getenv ("MINI2_" ++ s) = none)
    (atof : Line → ℚ) :
    ∃ text ov, emitYaml args name edges = .ok text ∧ ReadsBack args edges ov ∧
      (∀ src dst, bfsNextHop (buildAdj edges) src dst = some (hopOf edges src dst)) ∧
      (∀ files path, loads files path text → loadOverlay getenv atof files path = .ok ov) ∧
      ∀ rows : Node → List String, (∀ src, RowForm src (rowOf edges src) (rows src)) →
        ∀ files path, loads files path (join (lines args name edges (nodes.flatMap rows))) →
          loadOverlay getenv atof files path = .ok ov := by
  refine ⟨_, loaded atof args edges, emitYaml_eq hconn name, ⟨rfl, rfl, rfl, rfl, rfl, rfl⟩,
    bfsNextHop_eq hconn, fun files path hfile => ?_, fun rows hrows files path hfile => ?_⟩
  · exact loadOverlay_lines hargs hname (fun src => .flow) henv hfile
  · exact loadOverlay_lines hargs hname hrows henv hfile

def twoHosts : Args :=
  { hostMap := fun n => if n = .A then "h1" else "h2"
    implMap := fun _ => "cpp"
    teamMap := fun _ => "green"
    realHosts := fun h => if h = "h2" then some "10.0.0.2" else none
    interHostLatencyMs := "2.0"
    intraHostLatencyMs := "0.05"
    simulateNetwork := true }

/-- Everyone next to the gateway. -/
def starEdges : List (Node × Node) := [.B, .C, .D, .E, .F, .G, .H, .I].map fun n => (.A, n)

lemma twoHosts_tokens : Tokens twoHosts where
  hostMap n := by cases n <;> decide
  implMap n := (by decide : Token "cpp".toList)
  teamMap n := (by decide : Token "green".toList)
  realHosts h v hv := by
    dsimp only [twoHosts] at hv
    split at hv
    · obtain rfl := Option.some.inj hv
      decide
    · exact absurd hv (by simp)
  inter := by
    unfold OneLine
    decide
  intra := by
    unfold OneLine
    decide

theorem loadOverlay_emitYaml_star : ∃ text ov,
    emitYaml twoHosts "star" starEdges = .ok text ∧ ReadsBack twoHosts starEdges ov ∧
      ∀ files path, loads files path text →
        loadOverlay (fun _ => none) (fun _ => 0) files path = .ok ov := by
  have hconn : (edgeGraph starEdges).Connected := connected_of_validate (by decide)
  have hname : OneLine "star" := by
    unfold OneLine
    decide
  obtain ⟨text, ov, htext, hov, -, hload, -⟩ := loadOverlay_emitYaml twoHosts twoHosts_tokens
    "star" hname starEdges hconn (fun _ => none) (fun _ => rfl) (fun _ => 0)
  exact ⟨text, ov, htext, hov, hload⟩

end Mini2.OverlayRoundTrip
