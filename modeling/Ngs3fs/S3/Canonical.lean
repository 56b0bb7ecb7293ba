import Ngs3fs.S3.Sign

/-!
# The canonical headers, and the fast path

The general path of `sign_v4_impl` groups the headers by name: `canonicalHeaders_eq` is the
refinement of `Groups.group` by `add_canonical_header`. The fast path leaves the values as they
are; it signs the same request if and only if they need no normalisation. -/

namespace Ngs3fs.S3
open List

/-! ### Values -/

lemma intercalate_cons (sep : Char) (first : Text) (rest : List Text) :
    [sep].intercalate (first :: rest) = first ++ rest.flatMap (sep :: ·) := by
  induction rest generalizing first with
  | nil => simp [intercalate]
  | cons second rest ih =>
    have next : [sep].intercalate (first :: second :: rest) =
        first ++ sep :: [sep].intercalate (second :: rest) := by
      simp [intercalate, intersperse]
    rw [next, ih, flatMap_cons, cons_append]

lemma normalizeFrom_eq (value output : Text) (some : output ≠ []) :
    normalizeFrom [] false value = collapse value ∧
    normalizeFrom output true value = output ++ (words value).flatMap (' ' :: ·) ∧
    ∃ piece pieces, value.splitOnP isSpace = piece :: pieces ∧
      normalizeFrom output false value =
        output ++ piece ++ (pieces.filter (! ·.isEmpty)).flatMap (' ' :: ·) := by
  induction value generalizing output with
  | nil => exact ⟨rfl, by simp [normalizeFrom, words], [], [], rfl, by simp [normalizeFrom]⟩
  | cons c value ih =>
    have filled : (!output.isEmpty) = true := by simpa using some
    by_cases space : isSpace c = true
    · obtain ⟨start, after, -⟩ := ih output some
      have skip : words (c :: value) = words value := by
        simp [words, splitOnP_cons_eq_if_modifyHead, space]
      refine ⟨?_, ?_, [], value.splitOnP isSpace, ?_, ?_⟩
      · rw [collapse, skip, ← collapse, ← start, normalizeFrom, if_pos space]
        rfl
      · rw [skip, ← after, normalizeFrom, if_pos space, Bool.true_or]
      · rw [splitOnP_cons_eq_if_modifyHead, if_pos space]
      · rw [normalizeFrom, if_pos space, filled, Bool.or_true, after, append_nil, words]
    · obtain ⟨piece, pieces, split, -⟩ := (ih output some).2.2
      have within (output : Text) (some : output ≠ []) : normalizeFrom output false value =
          output ++ piece ++ (pieces.filter (! ·.isEmpty)).flatMap (' ' :: ·) := by
        obtain ⟨piece', pieces', split', loop⟩ := (ih output some).2.2
        rw [split] at split'
        cases split'
        exact loop
      have longer : (c :: value).splitOnP isSpace = (c :: piece) :: pieces := by
        rw [splitOnP_cons_eq_if_modifyHead, if_neg space, split]
        rfl
      have found : words (c :: value) = (c :: piece) :: pieces.filter (! ·.isEmpty) := by
        rw [words, longer]
        rfl
      refine ⟨?_, ?_, c :: piece, pieces, longer, ?_⟩
      · rw [normalizeFrom, if_neg space, within _ (by simp), collapse, found, intercalate_cons]
        rfl
      · rw [normalizeFrom, if_neg space, within _ (by simp), found, flatMap_cons]
        simp
      · rw [normalizeFrom, if_neg space, within _ (by simp)]
        simp

lemma normalizeFrom_plain (value output : Text) (plain : hasHeaderWhitespace value = false) :
    normalizeFrom output false value = output ++ value := by
  induction value generalizing output with
  | nil => exact (append_nil output).symm
  | cons c value ih =>
    rw [hasHeaderWhitespace, any_cons, Bool.or_eq_false_iff] at plain
    rw [normalizeFrom, plain.1, if_neg Bool.false_ne_true, ih _ plain.2]
    simp

lemma normalizeHeaderValue_eq (value : Text) : normalizeHeaderValue value = collapse value := by
  rw [← (normalizeFrom_eq value [' '] (by simp)).1, normalizeHeaderValue]
  split
  · rfl
  · rename_i plain
    rw [normalizeFrom_plain value [] (by simpa using plain), nil_append]

lemma stored_eq (value : Text) :
    (if hasHeaderWhitespace value then normalizeHeaderValue value else value) =
      normalizeHeaderValue value := by
  rw [normalizeHeaderValue]
  split <;> rfl

lemma length_normalizeFrom (value output : Text) (pending : Bool) :
    (normalizeFrom output pending value).length ≤ output.length + pending.toNat + value.length := by
  induction value generalizing output pending with
  | nil => exact Nat.le_add_right _ _
  | cons c value ih =>
    rw [normalizeFrom, length_cons]
    split
    · refine Nat.le_trans (ih ..) ?_
      have bound := Bool.toNat_le (pending || !output.isEmpty)
      omega
    · refine Nat.le_trans (ih ..) ?_
      cases pending with
      | false | true => simp; omega

lemma length_normalizeHeaderValue (value : Text) :
    (normalizeHeaderValue value).length ≤ value.length := by
  rw [normalizeHeaderValue]
  split
  · simpa using length_normalizeFrom value [] false
  · exact Nat.le_refl _

/-! ### Groups -/

section
variable (credentials : Credentials) (request : SignRequest)

def joined (g : Text × List Text) : CanonicalHeader := ⟨g.1, [','].intercalate g.2⟩

def entry (h : Header) : Text × Text := (canonicalName h.name, collapse h.value)

lemma insertHeader_joined (name value : Text) {groups}
    (filled : ∀ n vs, (n, vs) ∈ groups → vs ≠ []) :
    insertHeader name value (groups.map joined) =
      (Groups.add name (collapse value) groups).map joined := by
  have alone : (⟨name, if hasHeaderWhitespace value then normalizeHeaderValue value else value⟩ :
      CanonicalHeader) = joined (name, [collapse value]) := by
    rw [stored_eq, normalizeHeaderValue_eq, joined, intercalate_cons, flatMap_nil, append_nil]
  induction groups with
  | nil => rw [map_nil, insertHeader, alone]; rfl
  | cons head groups ih =>
    obtain ⟨n, vs⟩ := head
    have rest := ih fun n vs mem => filled n vs (mem_cons_of_mem _ mem)
    rw [map_cons, insertHeader, Groups.add]
    change (if n < name then _ else if n = name then _ else _) = _
    split
    · rw [rest, map_cons]
    split
    · obtain ⟨first, more, rfl⟩ := exists_cons_of_ne_nil (filled n vs mem_cons_self)
      simp [joined, intercalate_cons, normalizeHeaderValue_eq]
    · rw [alone, map_cons, map_cons]

lemma foldl_addCanonicalHeader (hs : List Header) {given}
    {groups} (grouped : Groups.Grouped given groups) :
    hs.foldl addCanonicalHeader (groups.map joined) =
      ((hs.map entry).foldl (fun groups pair => Groups.add pair.1 pair.2 groups) groups).map
        joined := by
  induction hs generalizing given groups with
  | nil => rfl
  | cons h hs ih =>
    rw [foldl_cons, addCanonicalHeader,
      insertHeader_joined _ _ fun n vs mem => ((grouped.mem n vs).1 mem).2,
      ih (grouped.add (canonicalName h.name) (collapse h.value))]
    rfl

lemma canonicalHeaders_eq : canonicalHeaders credentials request =
    (Groups.group ((givenHeaders credentials request).map entry)).map joined :=
  foldl_addCanonicalHeader _ (Groups.grouped_group [])

lemma valuesFor_entry (name : Text) (hs : List Header) : Groups.valuesFor name (hs.map entry) =
      (hs.filter fun h => canonicalName h.name = name).map fun h => collapse h.value := by
  rw [Groups.valuesFor, filter_map, map_map]
  exact congrArg (map _) (filter_congr fun h _ => decide_eq_decide.2 Iff.rfl)

variable {credentials request}

lemma mem_canonicalHeaders {h} : h ∈ canonicalHeaders credentials request ↔
      (∃ g ∈ givenHeaders credentials request, canonicalName g.name = h.name) ∧
      h.value = [','].intercalate (((givenHeaders credentials request).filter
        fun g => canonicalName g.name = h.name).map fun g => collapse g.value) := by
  rw [canonicalHeaders_eq, mem_map]
  have grouped := Groups.grouped_group ((givenHeaders credentials request).map entry)
  constructor
  · rintro ⟨⟨n, vs⟩, mem, rfl⟩
    obtain ⟨rfl, some⟩ := (grouped.mem n vs).1 mem
    rw [valuesFor_entry] at some ⊢
    obtain ⟨v, found⟩ := exists_mem_of_ne_nil _ some
    obtain ⟨g, mem, -⟩ := mem_map.1 found
    exact ⟨⟨g, (mem_filter.1 mem).1, of_decide_eq_true (mem_filter.1 mem).2⟩, rfl⟩
  · rintro ⟨⟨g, mem, name⟩, value⟩
    refine ⟨(h.name, Groups.valuesFor h.name _), (grouped.mem _ _).2 ⟨rfl, ?_⟩, ?_⟩
    · rw [valuesFor_entry]
      exact ne_nil_of_mem (mem_map.2 ⟨g, mem_filter.2 ⟨mem, decide_eq_true name⟩, rfl⟩)
    · rw [valuesFor_entry, joined, ← value]

lemma sorted_canonicalHeaders :
    (canonicalHeaders credentials request).Pairwise fun a b => a.name < b.name := by
  rw [canonicalHeaders_eq]
  exact pairwise_map.2 (Groups.grouped_group _).sorted

lemma foldl_appendName (hs : List CanonicalHeader) {names : Text} (some : names ≠ []) :
    hs.foldl appendName names = names ++ (hs.map (·.name)).flatMap (';' :: ·) := by
  induction hs generalizing names with
  | nil => exact (append_nil names).symm
  | cons h hs ih =>
    have next : appendName names h = names ++ ';' :: h.name := by
      rw [appendName, if_neg (by simpa using some), append_assoc]
      rfl
    rw [foldl_cons, next, ih (by simp), map_cons, flatMap_cons, append_assoc]

lemma foldl_appendName_cons {h : CanonicalHeader} (hs : List CanonicalHeader) (some : h.name ≠ []) :
    (h :: hs).foldl appendName [] = h.name ++ (hs.map (·.name)).flatMap (';' :: ·) := by
  rw [foldl_cons, show appendName [] h = h.name from rfl, foldl_appendName hs some]

/-- Only the first of the sorted names can be empty; it is not listed. -/
lemma signedNames_eq {hs : List CanonicalHeader} (sorted : hs.Pairwise fun a b => a.name < b.name) :
    hs.foldl appendName [] = [';'].intercalate ((hs.map (·.name)).filter (! ·.isEmpty)) := by
  have listed (h : CanonicalHeader) (rest : List CanonicalHeader) (some : h.name ≠ [])
      (more : ∀ r ∈ rest, r.name ≠ []) : (h :: rest).foldl appendName [] =
        [';'].intercalate (((h :: rest).map (·.name)).filter (! ·.isEmpty)) := by
    have all : ((h :: rest).map (·.name)).filter (! ·.isEmpty) = (h :: rest).map (·.name) := by
      refine filter_eq_self.2 fun name mem => ?_
      obtain ⟨r, found, rfl⟩ := mem_map.1 mem
      rcases mem_cons.1 found with rfl | later
      · simpa using some
      · simpa using more r later
    rw [all, map_cons, intercalate_cons, foldl_appendName_cons rest some]
  have above {h r : CanonicalHeader} (less : h.name < r.name) : r.name ≠ [] := by
    intro empty
    rw [empty] at less
    exact not_lt_nil _ less
  cases hs with
  | nil => rfl
  | cons h rest =>
    obtain ⟨first, sorted⟩ := pairwise_cons.1 sorted
    by_cases empty : h.name = []
    · cases rest with
      | nil => simp [appendName, empty]
      | cons r rest =>
        have skip : appendName [] h = [] := empty
        rw [foldl_cons, skip, listed r rest (above (first r mem_cons_self))
          fun r' mem => above (first r' (mem_cons_of_mem _ mem))]
        simp [empty]
    · exact listed h rest empty fun r mem => above (first r mem)

lemma canonicalHeaders_congr {hs}
    (same : ∀ name, request.headers.filter (fun h => canonicalName h.name = name) =
      hs.filter fun h => canonicalName h.name = name) :
    canonicalHeaders credentials { request with headers := hs } =
      canonicalHeaders credentials request := by
  obtain ⟨first, rest, form⟩ : ∃ first rest, ∀ hs,
      givenHeaders credentials { request with headers := hs } = first ++ hs ++ rest :=
    ⟨[⟨"host".toList, request.authority⟩], addedHeaders credentials request, fun _ => rfl⟩
  have here : givenHeaders credentials request = first ++ request.headers ++ rest :=
    form request.headers
  have values (name : Text) :
      Groups.valuesFor name ((givenHeaders credentials { request with headers := hs }).map entry) =
        Groups.valuesFor name ((givenHeaders credentials request).map entry) := by
    rw [valuesFor_entry, valuesFor_entry, form, here, filter_append, filter_append,
      filter_append, filter_append, same name]
  rw [canonicalHeaders_eq, canonicalHeaders_eq,
    (Groups.grouped_group _).unique (Groups.grouped_group _) values]

end

/-- **The canonical headers.** Each name is listed once, in increasing order, with the collapsed
values given for it joined by commas; the signed names are these names but for an empty one; and
headers of different names may change places. -/
theorem canonical_headers_correct (credentials : Credentials) (request : SignRequest) :
    ((canonicalHeaders credentials request).Pairwise fun a b => a.name < b.name) ∧
    (∀ name, (∃ h ∈ canonicalHeaders credentials request, h.name = name) ↔
      ∃ g ∈ givenHeaders credentials request, canonicalName g.name = name) ∧
    (∀ h ∈ canonicalHeaders credentials request, h.value =
      [','].intercalate (((givenHeaders credentials request).filter
        fun g => canonicalName g.name = h.name).map fun g => collapse g.value)) ∧
    generalFields credentials request =
      ⟨(canonicalHeaders credentials request).flatMap fun h =>
          h.name ++ [':'] ++ h.value ++ ['\n'],
        [';'].intercalate (((canonicalHeaders credentials request).map (·.name)).filter
          (! ·.isEmpty))⟩ ∧
    ∀ (hs : List Header),
      (∀ name, request.headers.filter (fun h => canonicalName h.name = name) =
        hs.filter fun h => canonicalName h.name = name) →
      ∀ hashes, signV4 hashes credentials { request with headers := hs } =
        signV4 hashes credentials request := by
  refine ⟨sorted_canonicalHeaders, fun name => ⟨?_, ?_⟩, fun h mem =>
      (mem_canonicalHeaders.1 mem).2,
    ?_, fun hs same hashes => ?_⟩
  · rintro ⟨h, mem, rfl⟩
    exact (mem_canonicalHeaders.1 mem).1
  · rintro ⟨g, mem, rfl⟩
    exact ⟨⟨canonicalName g.name, [','].intercalate (((givenHeaders credentials request).filter
      fun h => canonicalName h.name = canonicalName g.name).map fun h => collapse h.value)⟩,
      mem_canonicalHeaders.2 ⟨⟨g, mem, rfl⟩, rfl⟩, rfl⟩
  · rw [generalFields, signedNames_eq sorted_canonicalHeaders]
    rfl
  · have fields : generalFields credentials { request with headers := hs } =
        generalFields credentials request := by
      rw [generalFields, canonicalHeaders_congr same]
      rfl
    have plain (r : SignRequest) : S3.fields credentials r true = generalFields credentials r := rfl
    rw [signV4, signV4, plain, plain, fields]
    rfl

def shortKeys : Credentials := ⟨['k'], ['s'], []⟩

def getRoot (headers : List Header) : SignRequest where
  method := "GET".toList
  canonicalUri := ['/']
  canonicalQuery := []
  authority := ['h']
  headers := headers
  payloadHash := ['0']
  amzDatetime := "20130524T000000Z".toList
  region := ['r']
  service := ['s', '3']
  fastGet := true

def plainText : Hashes := ⟨id, fun _ _ _ _ text => text⟩

theorem canonical_headers_correct_swap :
    signV4 plainText shortKeys (getRoot [⟨['b'], ['2']⟩, ⟨['a'], ['1']⟩]) =
      signV4 plainText shortKeys (getRoot [⟨['a'], ['1']⟩, ⟨['b'], ['2']⟩]) := by
  refine (canonical_headers_correct shortKeys
    (getRoot [⟨['a'], ['1']⟩, ⟨['b'], ['2']⟩])).2.2.2.2 _ (fun name => ?_) plainText
  have a : canonicalName ['a'] = ['a'] := by decide
  have b : canonicalName ['b'] = ['b'] := by decide
  by_cases first : ['a'] = name
  · subst first
    simp [getRoot, a, b]
  · simp [getRoot, filter_cons, a, b, first]

theorem empty_name_unlisted :
    (generalFields shortKeys (getRoot [⟨[], ['v']⟩])).signedNames ≠
      [';'].intercalate ((canonicalHeaders shortKeys (getRoot [⟨[], ['v']⟩])).map
        (·.name)) := by
  decide

/-! ### The fast path -/

section
variable {credentials : Credentials} {request : SignRequest} {ifMatch range : Option Text}

lemma scanFast_cases (fast : scanFast none none request.headers = some (ifMatch, range)) :
    (request.headers = [] ∧ ifMatch = none ∧ range = none) ∨
    (∃ v, request.headers = [⟨ifMatchName, v⟩] ∧ ifMatch = some v ∧ range = none) ∨
    (∃ v, request.headers = [⟨rangeName, v⟩] ∧ ifMatch = none ∧ range = some v) ∨
    ∃ v u, (request.headers = [⟨ifMatchName, v⟩, ⟨rangeName, u⟩] ∨
      request.headers = [⟨rangeName, u⟩, ⟨ifMatchName, v⟩]) ∧
      ifMatch = some v ∧ range = some u := by
  obtain ⟨headers, form⟩ : ∃ headers, headers = request.headers := ⟨_, rfl⟩
  rw [← form] at fast ⊢
  clear form
  have full (v u : Text) (headers : List Header)
      (fast : scanFast (some v) (some u) headers = some (ifMatch, range)) :
      headers = [] ∧ ifMatch = some v ∧ range = some u := by
    cases headers with
    | nil =>
      cases fast
      exact ⟨rfl, rfl, rfl⟩
    | cons h headers => simp [scanFast] at fast
  cases headers with
  | nil =>
    cases fast
    exact .inl ⟨rfl, rfl, rfl⟩
  | cons h headers =>
    obtain ⟨name, v⟩ := h
    rw [scanFast] at fast
    split at fast
    · rename_i first
      obtain ⟨rfl, -⟩ : name = ifMatchName ∧ _ := first
      cases headers with
      | nil =>
        cases fast
        exact .inr (.inl ⟨v, rfl, rfl, rfl⟩)
      | cons h headers =>
        obtain ⟨name, u⟩ := h
        rw [scanFast, if_neg (by simp)] at fast
        obtain ⟨second, fast⟩ := Option.ite_none_right_eq_some.1 fast
        obtain ⟨rfl, -⟩ : name = rangeName ∧ _ := second
        obtain ⟨rfl, rfl, rfl⟩ := full v u headers fast
        exact .inr (.inr (.inr ⟨v, u, .inl rfl, rfl, rfl⟩))
    obtain ⟨first, fast⟩ := Option.ite_none_right_eq_some.1 fast
    obtain ⟨rfl, -⟩ : name = rangeName ∧ _ := first
    cases headers with
    | nil =>
      cases fast
      exact .inr (.inr (.inl ⟨v, rfl, rfl, rfl⟩))
    | cons h headers =>
      obtain ⟨name, u⟩ := h
      rw [scanFast] at fast
      split at fast
      · rename_i second
        obtain ⟨rfl, -⟩ : name = ifMatchName ∧ _ := second
        obtain ⟨rfl, rfl, rfl⟩ := full u v headers fast
        exact .inr (.inr (.inr ⟨u, v, .inr rfl, rfl, rfl⟩))
      · rw [if_neg (by simp)] at fast
        cases fast

def fastEntries (credentials : Credentials) (request : SignRequest) (ifMatch range : Option Text) :
    List Header :=
  ⟨hostName, request.authority⟩ :: (ifMatch.map fun v => ⟨ifMatchName, v⟩).toList ++
    (range.map fun v => ⟨rangeName, v⟩).toList ++ addedHeaders credentials request

def normalized (h : Header) : CanonicalHeader := ⟨h.name, normalizeHeaderValue h.value⟩

lemma insertHeader_last {name value headers} (last : ∀ h ∈ headers, h.name < name) :
    insertHeader name value headers = headers ++ [normalized ⟨name, value⟩] := by
  induction headers with
  | nil => rw [insertHeader, stored_eq]; rfl
  | cons h headers ih =>
    rw [insertHeader, if_pos (last h mem_cons_self),
      ih fun h mem => last h (mem_cons_of_mem _ mem), cons_append]

lemma foldl_sorted {hs : List Header} (headers : List CanonicalHeader)
    (plain : ∀ h ∈ hs, canonicalName h.name = h.name)
    (sorted : hs.Pairwise fun a b => a.name < b.name)
    (last : ∀ h ∈ headers, ∀ g ∈ hs, h.name < g.name) :
    hs.foldl addCanonicalHeader headers = headers ++ hs.map normalized := by
  induction hs generalizing headers with
  | nil => exact (append_nil headers).symm
  | cons g hs ih =>
    obtain ⟨first, sorted⟩ := pairwise_cons.1 sorted
    rw [foldl_cons, addCanonicalHeader, plain g mem_cons_self,
      insertHeader_last fun h mem => last h mem g mem_cons_self,
      ih _ (fun h mem => plain h (mem_cons_of_mem _ mem)) sorted, append_assoc]
    · rfl
    · intro h mem g' later
      rcases mem_append.1 mem with old | new
      · exact last h old g' (mem_cons_of_mem _ later)
      · cases mem_singleton.1 new
        exact first g' later

lemma names_sublist (credentials : Credentials) (request : SignRequest)
    (ifMatch range : Option Text) :
    ((fastEntries credentials request ifMatch range).map (·.name)).Sublist
      [hostName, ifMatchName, rangeName, payloadHashName, dateName, tokenName] := by
  have one (name : Text) (o : Option Text) :
      ((o.map fun v => (⟨name, v⟩ : Header)).toList.map (·.name)).Sublist [name] := by
    cases o <;> simp
  simp only [fastEntries, addedHeaders, cons_append, map_cons, map_append]
  exact (((one ifMatchName ifMatch).append (one rangeName range)).append
    (((one tokenName credentials.token).cons_cons dateName).cons_cons payloadHashName)).cons_cons
      hostName

lemma canonicalHeaders_fast (fast : scanFast none none request.headers = some (ifMatch, range)) :
    canonicalHeaders credentials request =
      (fastEntries credentials request ifMatch range).map normalized := by
  have names := names_sublist credentials request ifMatch range
  have sorted : (fastEntries credentials request ifMatch range).Pairwise
      fun a b => a.name < b.name := by
    refine pairwise_map.1 (List.Pairwise.sublist names ?_)
    decide
  have plain : ∀ h ∈ fastEntries credentials request ifMatch range,
      canonicalName h.name = h.name := by
    have all : ∀ n ∈ [hostName, ifMatchName, rangeName, payloadHashName, dateName, tokenName],
        canonicalName n = n := by decide
    exact fun h mem => all _ (names.subset (mem_map_of_mem mem))
  have natural (name : Text) : request.headers.filter (fun h => canonicalName h.name = name) =
      ((ifMatch.map fun v => (⟨ifMatchName, v⟩ : Header)).toList ++
        (range.map fun v => (⟨rangeName, v⟩ : Header)).toList).filter
          fun h => canonicalName h.name = name := by
    obtain ⟨h, rfl, rfl⟩ | ⟨v, h, rfl, rfl⟩ | ⟨v, h, rfl, rfl⟩ | ⟨v, u, h | h, rfl, rfl⟩ :=
      scanFast_cases fast
    all_goals rw [h]
    all_goals try rfl
    -- the other order
    have apart : canonicalName ifMatchName ≠ canonicalName rangeName := by decide
    by_cases first : canonicalName ifMatchName = name
    · have second : canonicalName rangeName ≠ name := fun same => apart (first.trans same.symm)
      simp [first, second]
    · simp [filter_cons, first]
  rw [← canonicalHeaders_congr natural]
  exact foldl_sorted [] plain sorted nofun

lemma fastFields_eq : fastFields credentials request ifMatch range =
    ⟨(fastEntries credentials request ifMatch range).flatMap fun h =>
      h.name ++ [':'] ++ h.value ++ ['\n'],
    ((fastEntries credentials request ifMatch range).map normalized).foldl appendName []⟩ := by
  have host : hostField = hostName ++ [':'] := by decide
  have hash : payloadHashField = payloadHashName ++ [':'] := by decide
  have date : dateField = '\n' :: dateName ++ [':'] := by decide
  have token : tokenField = '\n' :: tokenName ++ [':'] := by decide
  have fixed : fixedNames =
      ';' :: payloadHashName ++ ';' :: dateName := by decide
  have start : hostName ≠ [] := by decide
  rw [fastFields, fastEntries, cons_append, cons_append, map_cons,
    foldl_appendName_cons _ start, host, hash, date, token, fixed, addedHeaders, map_map]
  have name : (fun h : CanonicalHeader => h.name) ∘ normalized = Header.name := rfl
  rw [name, normalized]
  clear host hash date token fixed start
  generalize hostName = n₁, ifMatchName = n₂, rangeName = n₃, payloadHashName = n₄, dateName = n₅,
    tokenName = n₆, credentials.token = t
  cases ifMatch <;> cases range <;> cases t <;> simp [fastField, fastName]

lemma lines_eq_iff (hs : List Header) : hs.flatMap (fun h => h.name ++ [':'] ++ h.value ++ ['\n']) =
        (hs.map normalized).flatMap CanonicalHeader.line ↔
      ∀ h ∈ hs, normalizeHeaderValue h.value = h.value := by
  have total (hs : List Header) : ((hs.map normalized).flatMap CanonicalHeader.line).length ≤
      (hs.flatMap fun h => h.name ++ [':'] ++ h.value ++ ['\n']).length := by
    induction hs with
    | nil => exact Nat.le_refl _
    | cons h hs ih =>
      have first := length_normalizeHeaderValue h.value
      simp only [map_cons, flatMap_cons, length_append, CanonicalHeader.line, normalized]
      omega
  induction hs with
  | nil => simp
  | cons h hs ih =>
    have first := length_normalizeHeaderValue h.value
    have rest := total hs
    rw [forall_mem_cons, map_cons, flatMap_cons, flatMap_cons]
    constructor
    · intro same
      have length := congrArg length same
      simp only [length_append, CanonicalHeader.line, normalized] at length
      obtain ⟨here, there⟩ := append_inj same (by
        simp only [length_append, CanonicalHeader.line, normalized]
        omega)
      refine ⟨?_, ih.1 there⟩
      simpa [CanonicalHeader.line, normalized] using here.symm
    · rintro ⟨here, there⟩
      rw [ih.2 there, CanonicalHeader.line, normalized, here]

lemma canonical_of_resultHeaders {f g} (same : resultHeaders plainText credentials request f =
      resultHeaders plainText credentials request g) (names : f.signedNames = g.signedNames) :
    f.canonical = g.canonical := by
  simp only [resultHeaders, append_cancel_left_eq, cons.injEq, Header.mk.injEq,
    and_true, true_and] at same
  simp only [authorization, names, signature, plainText, toSign, canonicalRequest, id,
    append_cancel_left_eq, append_cancel_right_eq] at same
  exact same

end

/-- **The fast path.** It gives the headers that the general path gives, whatever the digests are,
if and only if it is not taken or every value it signs is its own normal form. -/
theorem fast_path_transparent_iff (credentials : Credentials) (request : SignRequest)
    (accepted : checkRequest credentials request = .ok ()) :
    (∀ hashes, signV4Headers hashes credentials { request with fastGet := true } =
      signV4Headers hashes credentials { request with fastGet := false }) ↔
    ∀ ifMatch range, fastGetHeaders { request with fastGet := true } false =
        some (ifMatch, range) →
      ∀ h ∈ fastEntries credentials request ifMatch range,
        normalizeHeaderValue h.value = h.value := by
  have headers (hashes : Hashes) (fast : Bool) :
      signV4Headers hashes credentials { request with fastGet := fast } =
        .ok (resultHeaders hashes credentials request
          (fields credentials { request with fastGet := fast } false)) := by
    rw [signV4Headers, show checkRequest credentials { request with fastGet := fast } = .ok () from
      accepted]
    rfl
  have slow : fields credentials { request with fastGet := false } false =
      generalFields credentials request := rfl
  simp only [headers, slow, Except.ok.injEq]
  cases fast : fastGetHeaders { request with fastGet := true } false with
  | none =>
    have general : fields credentials { request with fastGet := true } false =
        generalFields credentials request := by
      rw [fields, fast]
      rfl
    rw [general]
    exact ⟨fun _ _ _ => nofun, fun _ _ => rfl⟩
  | some pair =>
    obtain ⟨ifMatch, range⟩ := pair
    have scanned : scanFast none none request.headers = some (ifMatch, range) := by
      rw [fastGetHeaders] at fast
      split at fast
      · cases fast
      · exact fast
    have taken : fields credentials { request with fastGet := true } false =
        fastFields credentials request ifMatch range := by
      rw [fields, fast]
      rfl
    have general : generalFields credentials request =
        ⟨((fastEntries credentials request ifMatch range).map normalized).flatMap
          CanonicalHeader.line, (fastFields credentials request ifMatch range).signedNames⟩ := by
      rw [generalFields, canonicalHeaders_fast scanned, fastFields_eq]
    have lines := lines_eq_iff (fastEntries credentials request ifMatch range)
    rw [taken, general]
    constructor
    · rintro same _ _ ⟨⟩
      refine lines.1 ?_
      have canonical := canonical_of_resultHeaders (same plainText) rfl
      rw [fastFields_eq] at canonical
      exact canonical
    · intro normal hashes
      rw [← lines.2 (normal ifMatch range rfl), fastFields_eq]

theorem fast_path_transparent_iff_range :
    signV4Headers plainText shortKeys (getRoot [⟨rangeName, "bytes=0-9".toList⟩]) =
      signV4Headers plainText shortKeys
        { getRoot [⟨rangeName, "bytes=0-9".toList⟩] with fastGet := false } := by
  refine (fast_path_transparent_iff shortKeys
    (getRoot [⟨rangeName, "bytes=0-9".toList⟩]) rfl).2 ?_ plainText
  rintro _ _ ⟨⟩
  decide

theorem fast_path_keeps_blank :
    signV4Headers plainText shortKeys (getRoot [⟨rangeName, "bytes=0-9 ".toList⟩]) ≠
      signV4Headers plainText shortKeys
        { getRoot [⟨rangeName, "bytes=0-9 ".toList⟩] with fastGet := false } := by
  decide +kernel

end Ngs3fs.S3
