import HiddenLightning.Words
import HiddenLightning.Saving
import HiddenLightning.Scraper
import HiddenLightning.ShortChannelIds

/-! # Lines from the user

`poll_for_user_input` (`cli.rs`) reads a line, cuts it into words and runs the command the first
one names.  A mistake of the user is answered with a message and the next prompt, or at least it
should be: the crate is built with `panic = "abort"`, so every `unwrap` and every slice that fails
ends the node.  Here are the commands that take apart what the user typed, up to the request they
make of the node, with every such place as it is in the source; `none` is the end of the process.

Three helpers are partial.  `to_compressed_pubkey` slices the first 66 bytes off its argument;
`probe` unwraps the parsed key; and the branches for files that cannot be read print
`e.into_inner().unwrap()`, though an error of the operating system has no inner error.
`line_answered_iff` gives for every line, every state of the files it names and every
command exactly when the line is answered.
-/
namespace HiddenLightning
open Numerals OpenFiles Words

variable {E : Secp256k1} {A : Type}

/-! ## Keys in hexadecimal -/

/-- `to_vec`: two digits a byte; a single digit at the end is dropped. -/
def toVec : Text → Option (List UInt8)
  | [] => some []
  | [c] => (hexValue c).map fun _ => []
  | hi :: lo :: rest => do
    let h ← hexValue hi
    let l ← hexValue lo
    let bytes ← toVec rest
    pure (UInt8.ofNat (16 * h + l) :: bytes)

variable (E) in
/-- `PublicKey::from_slice`. -/
def PublicKey.fromSlice (bytes : List UInt8) : Option (PublicKey E) :=
  match h : E.decode bytes with
  | none => none
  | some key => some ⟨key, E.decode_decode h⟩

variable (E) in
/-- `to_compressed_pubkey`; the outer `none` when the slice panics. -/
def toCompressedPubkey (hex : Text) : Option (Option (PublicKey E)) :=
  (sliceTo 66 hex).map fun digits => (toVec digits).bind (PublicKey.fromSlice E)

/-! ## Errors and files -/

/-- `std::io::Error`: from the operating system, from a message of the standard library, or made
of another error. -/
inductive IoError where
  | os (code : Nat)
  | simple (message : Text)
  | custom (error : Text)
deriving DecidableEq

/-- `into_inner`. -/
def IoError.intoInner : IoError → Option Text
  | .custom error => some error
  | _ => none

/-- The files, as one command finds them.  An entry of a directory is its name and its path;
`create` gives the files with an empty one of that name, and its inode; `device` is how the writes
to it go. -/
structure FileSystem where
  readToString : Text → Except IoError Text
  readDir : Text → Except IoError (List (Except IoError (Text × Text)))
  create : Text → Except IoError (Files Text UInt8 × Nat)
  device : Text → Device
  /-- Its errors have no inner error. -/
  readToString_intoInner : ∀ {path e}, readToString path = .error e → e.intoInner = none
  readDir_intoInner : ∀ {path e}, readDir path = .error e → e.intoInner = none

/-- A string with `{:?}`, if there is nothing to escape in it. -/
def quoted (s : Text) : Text := '"' :: s ++ ['"']

/-- `ParseIntError`, by its message. -/
inductive ParseIntError where
  | empty
  | invalidDigit
  | posOverflow
deriving DecidableEq

def ParseIntError.toText : ParseIntError → Text
  | .empty => "cannot parse integer from empty string".toList
  | .invalidDigit => "invalid digit found in string".toList
  | .posOverflow => "number too large to fit in target type".toList

/-- The error of the digits, after those that were read. -/
def digitsError (bound value : Nat) : Text → ParseIntError
  | [] => .posOverflow
  | c :: digits =>
    if ¬ c.isDigit then .invalidDigit
    else if bound < 10 * value + (c.toNat - '0'.toNat) then .posOverflow
    else digitsError bound (10 * value + (c.toNat - '0'.toNat)) digits

/-- The error of a string that `parseUnsigned` refuses. -/
def parseUnsignedError (bound : Nat) (s : Text) : ParseIntError :=
  if s = [] then .empty
  else if withoutPlus s = [] then .invalidDigit
  else digitsError bound 0 (withoutPlus s)

/-! ## What a command reads and does -/

/-- A line of the results that `dump_results` writes. -/
structure AttemptResult where
  targetPubkey : Text
  otherPubkey : Text
  channelId : Text
  transactionIdOutput : Text
  amount : UInt64
  blockOpen : UInt32
  dateFound : Nat

variable (E A) in
/-- What the commands read besides the line: the files, JSON, name resolution, how connecting to a
peer goes, the network graph, the attempt table, and what a probe needs. -/
structure CliEnv where
  files : FileSystem
  nodesFromStr : Text → Except Text (List Text)
  txsFromStr : Text → Except Text (List Transaction)
  /-- The bytes that `serde_json::to_writer_pretty` writes, one `write_all` after the other. -/
  toWriterPretty : List AttemptResult → List (List UInt8)
  toSocketAddrs : Text → Except IoError (List A)
  connectPeerIfNecessary : PublicKey E → A → Bool
  graphNodes : List (List UInt8)
  shortChannelIds : List UInt64
  attempts : List Attempt
  us : PublicKey E
  router : Router E
  sendAlongPath : List (RouteHop E) → PathResult
  preimage : List UInt8
  paymentHash : List UInt8
  pendingPayments : PaymentInfoStorage

variable (E) in
/-- What a command asks of the node; `other` is a line for the commands that are left out.  For
`dump_results` it is done: the bytes are those the file has taken. -/
inductive Request where
  | openChannel (peer : PublicKey E) (amtSat : Nat) (announced : Bool) (peerInfo : Text)
  | keysend (payee : PublicKey E) (amtMsat : Nat)
  | closeChannel (channelId : List UInt8) (peer : PublicKey E)
  | forceCloseChannel (channelId : List UInt8) (peer : PublicKey E)
  | probe (pending : PaymentInfoStorage) (result : Except ProbeError (Route E))
  | probeAll (campaign : Campaign)
  | dumpResults (path : Text) (results : List AttemptResult) (written : List UInt8)
  | other (words : List Text)

variable (E) in
/-- The answer to a line: what was printed, and the request if there is one.  No line goes
without either. -/
structure Reply where
  printed : List Text
  request : Option (Request E)
  answered : printed ≠ [] ∨ request.isSome

/-- A message, and the prompt. -/
def say (printed : List Text) (message : Text) : Option (Reply E) :=
  some ⟨printed ++ [message], none, Or.inl (by simp)⟩

/-- A request to the node. -/
def ask (printed : List Text) (request : Request E) : Option (Reply E) :=
  some ⟨printed, some request, Or.inr rfl⟩

/-- `println!("{:?}", e.into_inner().unwrap())`, and the prompt. -/
def sayInner (printed : List Text) (e : IoError) : Option (Reply E) :=
  e.intoInner.bind fun inner => say printed (quoted inner)

/-! ## The commands -/

/-- `parse_peer_info`; the outer `none` when the key's slice panics. -/
def parsePeerInfo (env : CliEnv E A) (peerPubkeyAndIpAddr : Text) :
    Option (Except IoError (PublicKey E × A)) :=
  match peerPubkeyAndIpAddr.splitOn '@' with
  | pubkey :: peerAddrStr :: _ =>
    match env.toSocketAddrs peerAddrStr with
    | .ok (peerAddr :: _) =>
      (toCompressedPubkey E pubkey).map fun
        | none => .error (.custom "ERROR: unable to parse given pubkey for node".toList)
        | some pubkey => .ok (pubkey, peerAddr)
    | _ => some (.error (.custom
        "ERROR: couldn't parse pubkey@host:port into a socket address".toList))
  | _ => some (.error (.custom
      "ERROR: incorrectly formatted peer info. Should be formatted as: `pubkey@host:port`".toList))

/-- `openchannel`. -/
def openchannel (env : CliEnv E A) : List Text → Option (Reply E)
  | peerInfo :: channelValueSat :: words =>
    match parsePeerInfo env peerInfo with
    | none => none
    | some (.error e) => sayInner [] e
    | some (.ok (pubkey, peerAddr)) =>
      -- the amount is checked before the peer is connected, the flag only afterwards
      match parseUnsigned maxU64 channelValueSat with
      | none => say [] "ERROR: channel amount must be a number".toList
      | some chanAmtSat =>
        if env.connectPeerIfNecessary pubkey peerAddr then
          match words with
          | [] => ask [] (.openChannel pubkey chanAmtSat false peerInfo)
          | flag :: _ =>
            if flag = "--public".toList ∨ flag = "--public=true".toList then
              ask [] (.openChannel pubkey chanAmtSat true peerInfo)
            else if flag = "--public=false".toList then
              ask [] (.openChannel pubkey chanAmtSat false peerInfo)
            else say [] ("ERROR: invalid `--public` command format. " ++
              "Valid formats: `--public`, `--public=true` `--public=false`").toList
        else say [] "ERROR: failed to connect to peer".toList
  | _ => say [] ("ERROR: openchannel has 2 required arguments: " ++
      "`openchannel pubkey@host:port channel_amt_satoshis` [--public]").toList

/-- `keysend`. -/
def keysendCommand (E : Secp256k1) : List Text → Option (Reply E)
  | [] => say [] ("ERROR: keysend requires a destination pubkey: " ++
      "`keysend <dest_pubkey> <amt_msat>`").toList
  | dest :: words =>
    -- the key is sliced before the amount is looked for
    match toCompressedPubkey E dest with
    | none => none
    | some none => say [] "ERROR: couldn't parse destination pubkey".toList
    | some (some destPubkey) =>
      match words with
      | [] => say [] ("ERROR: keysend requires an amount in millisatoshis: " ++
          "`keysend <dest_pubkey> <amt_msat>`").toList
      | amtMsatStr :: _ =>
        match parseUnsigned maxU64 amtMsatStr with
        | none => say [] ("ERROR: couldn't parse amount_msat: ".toList ++
            (parseUnsignedError maxU64 amtMsatStr).toText)
        | some amtMsat => ask [] (.keysend destPubkey amtMsat)

/-- `connectpeer`. -/
def connectpeer (env : CliEnv E A) : List Text → Option (Reply E)
  | [] => say [] ("ERROR: connectpeer requires peer connection info: " ++
      "`connectpeer pubkey@host:port`").toList
  | peerInfo :: _ =>
    match parsePeerInfo env peerInfo with
    | none => none
    | some (.error e) => sayInner [] e
    | some (.ok (pubkey, peerAddr)) =>
      if env.connectPeerIfNecessary pubkey peerAddr then
        say [] ("SUCCESS: connected to peer ".toList ++ pubkey.toText)
      else say [] "ERROR: failed to connect to peer".toList

/-- `closechannel` and `forceclosechannel`, which differ in their name and in their request. -/
def closing (name : String) (request : List UInt8 → PublicKey E → Request E) :
    List Text → Option (Reply E)
  | [] => say [] ("ERROR: " ++ name ++ " requires a channel ID: `" ++ name ++
      " <channel_id> <peer_pubkey>`").toList
  | channelIdStr :: words =>
    match toVec channelIdStr with
    | none => say [] "ERROR: couldn't parse channel_id".toList
    | some channelId =>
      if channelId.length ≠ 32 then say [] "ERROR: couldn't parse channel_id".toList
      else
        match words with
        | [] => say [] ("ERROR: " ++ name ++ " requires a peer pubkey: `" ++ name ++
            " <channel_id> <peer_pubkey>`").toList
        | peerPubkeyStr :: _ =>
          match (toVec peerPubkeyStr).bind (PublicKey.fromSlice E) with
          | none => say [] "ERROR: couldn't parse peer_pubkey".toList
          | some peerPubkey => ask [] (request channelId peerPubkey)

/-- `closechannel`. -/
def closechannel : List Text → Option (Reply E) := closing "closechannel" .closeChannel

/-- `forceclosechannel`. -/
def forceclosechannel : List Text → Option (Reply E) :=
  closing "forceclosechannel" .forceCloseChannel

/-- `probeprivate`; what `probe` itself prints is left out. -/
def probeprivate (env : CliEnv E A) : List Text → Option (Reply E)
  | pubkeyStr :: pubkeyGuess :: channelIdStr :: _ =>
    (probe env.us env.router env.sendAlongPath env.preimage env.paymentHash pubkeyStr channelIdStr
      pubkeyGuess env.pendingPayments).bind fun (pending, result) => ask [] (.probe pending result)
  | _ => say [] ("ERROR: probeprivate requires pubkey, guessed pubkey, and channel_id: " ++
      "`probeprivate <pubkey> <pubkey_guess> <channel_id>`").toList

/-- The transactions of the files of a directory, with what is printed.  An entry that cannot be
listed is unwrapped, and so is the inner error of a file that cannot be read; a file that cannot
be parsed is skipped. -/
def readTxFiles (env : CliEnv E A) :
    List (Except IoError (Text × Text)) → Option (List Text × List Transaction)
  | [] => some ([], [])
  -- `json_file.as_ref().unwrap()`
  | .error _ :: _ => none
  | .ok (name, path) :: entries =>
    let reading := "Reading tx file: Some(".toList ++ quoted name ++ [')']
    match env.files.readToString path with
    | .error e => e.intoInner.bind fun inner => (readTxFiles env entries).map fun (printed, txs) =>
        (reading :: quoted inner :: printed, txs)
    | .ok txData =>
      match env.txsFromStr txData with
      | .error e => (readTxFiles env entries).map fun (printed, txs) =>
          (reading :: e :: printed, txs)
      | .ok newTxs => (readTxFiles env entries).map fun (printed, txs) =>
          (reading :: printed, newTxs ++ txs)

/-- What is printed for a node of the graph. -/
def graphNodeText (pubkey : List UInt8) : Text :=
  "trying to parse pubkey NodeId(".toList ++ hexOfBytes pubkey ++ ") : ".toList ++
    quoted (hexOfBytes pubkey)

/-- The transactions of a directory, for the rest of the command. -/
def withTxs (env : CliEnv E A) (txpath : Text) (printed : List Text)
    (rest : List Text → List Transaction → Option (Reply E)) : Option (Reply E) :=
  match env.files.readDir txpath with
  | .error e => sayInner printed e
  | .ok txdir => (readTxFiles env txdir).bind fun (printed', txs) => rest (printed ++ printed') txs

/-- `probeall` from the nodes on, up to its first probe. -/
def probeNodes (env : CliEnv E A) (printed : List Text) (probetype : Text) (nodes : List Text)
    (txpath : Text) : Option (Reply E) :=
  withTxs env txpath printed fun printed txs =>
    ask printed (.probeAll ⟨probetype, nodes, txs, env.shortChannelIds⟩)

/-- `probeall`, up to its first probe. -/
def probeall (env : CliEnv E A) : List Text → Option (Reply E)
  | probetype :: nodepath :: txpath :: _ =>
    if nodepath = "all".toList then
      probeNodes env (env.graphNodes.map graphNodeText) probetype (env.graphNodes.map hexOfBytes)
        txpath
    else
      match env.files.readToString nodepath with
      | .error e => sayInner [] e
      | .ok nodeData =>
        -- malformed nodes are reported before the directory is looked at
        match env.nodesFromStr nodeData with
        | .error e => say [] e
        | .ok nodes => probeNodes env [] probetype nodes txpath
  | _ => say [] ("ERROR: probeall requires type nodefile and txfile: " ++
      "`probeprivate <probetype> <nodefile> <txfile>`").toList

/-- The result for a row of the attempt table; `none` when its channel id is not a number. -/
def attemptResult (txs : AList fun _ : UInt64 => Transaction) (attempt : Attempt) :
    Option AttemptResult :=
  (parseUnsigned maxU64 attempt.channelId).map fun channelId =>
    let scid := UInt64.ofNat channelId
    let utxo := txs.lookup scid
    { targetPubkey := attempt.targetPubkey
      otherPubkey :=
        if attempt.result = .incorrectOrUnknownPaymentDetails then attempt.guessPubkey else []
      channelId := attempt.channelId
      transactionIdOutput := match utxo with
        | some utxo => utxo.id ++ ':' :: decimal (voutFromScid scid).toNat
        | none => []
      amount := match utxo with
        | some utxo => utxo.amount
        | none => 0
      blockOpen := blockFromScid scid
      dateFound := attempt.dateFound }

/-- The writer of `dump_results`, with all the results written to it; `false` if a write failed. -/
def writeResultsTo (device : Device) (opened : Files Text UInt8 × Nat)
    (chunks : List (List UInt8)) : BufWriter Text UInt8 × Bool :=
  (BufWriter.new opened.1 opened.2).writeChunks device bufWriterCapacity chunks

/-- `dump_results` from the transactions on. -/
def writeResults (env : CliEnv E A) (resultDir : Text) (printed : List Text)
    (txs : List Transaction) : Option (Reply E) :=
  ((getAttemptsFound env.attempts).mapM (attemptResult (txsByScid txs))).bind fun results =>
    let path := resultDir ++ "/results.json".toList
    -- what `File::create` and `to_writer_pretty` return is unwrapped
    match env.files.create path with
    | .error _ => none
    | .ok opened =>
      let wrote := writeResultsTo (env.files.device path) opened (env.toWriterPretty results)
      if wrote.2 then
        -- the writer was dropped by `to_writer_pretty`, and what it could not pass on with it
        ask printed (.dumpResults path results (wrote.1.drop (env.files.device path)).handle.taken)
      else none

/-- `dump_results`. -/
def dumpResults (env : CliEnv E A) : List Text → Option (Reply E)
  | resultDir :: txpath :: _ => withTxs env txpath [] (writeResults env resultDir)
  | _ => say [] ("ERROR: dump_results requires result_dir tx_dir: " ++
      "`dump_results <result_dir> <tx_dir>`").toList

/-- The commands. -/
inductive Command where
  | openchannel
  | keysend
  | connectpeer
  | closechannel
  | forceclosechannel
  | probeprivate
  | probeall
  | dumpResults
deriving DecidableEq

/-- The command a word names, if it is one of these. -/
def Command.ofWord (word : Text) : Option Command :=
  if word = "openchannel".toList then some .openchannel
  else if word = "keysend".toList then some .keysend
  else if word = "connectpeer".toList then some .connectpeer
  else if word = "closechannel".toList then some .closechannel
  else if word = "forceclosechannel".toList then some .forceclosechannel
  else if word = "probeprivate".toList then some .probeprivate
  else if word = "probeall".toList then some .probeall
  else if word = "dump_results".toList then some .dumpResults
  else none

/-- A command with its arguments. -/
def Command.run (env : CliEnv E A) : Command → List Text → Option (Reply E)
  | .openchannel => HiddenLightning.openchannel env
  | .keysend => keysendCommand E
  | .connectpeer => HiddenLightning.connectpeer env
  | .closechannel => HiddenLightning.closechannel
  | .forceclosechannel => HiddenLightning.forceclosechannel
  | .probeprivate => HiddenLightning.probeprivate env
  | .probeall => HiddenLightning.probeall env
  | .dumpResults => HiddenLightning.dumpResults env

/-- One turn of `poll_for_user_input`, for a line of bytes; `none` when the node aborts. -/
def pollForUserInput (env : CliEnv E A) (line : ByteArray) : Option (Reply E) :=
  match readLine line with
  -- `lines` gives an error for bytes that are not UTF-8, and it is unwrapped
  | none => none
  | some text =>
    match splitWhitespace text with
    | [] => ask [] (.other [])
    | word :: words =>
      match Command.ofWord word with
      | none => ask [] (.other (word :: words))
      | some command => command.run env words

/-! ## The loops that read the transactions -/

/-- The path shows the files of a directory, in some order, and they are read as JSON. -/
structure CliEnv.Shows (env : CliEnv E A) (json : Json) (dir : TxDir) (path : Text)
    (order : List Text) : Prop where
  perm : order.Perm dir.keys
  entries : env.files.readDir path = .ok (order.map fun name => .ok (name, path ++ '/' :: name))
  read : ∀ {name text}, dir.lookup name = some text →
    env.files.readToString (path ++ '/' :: name) = .ok text
  parse : ∀ text, (env.txsFromStr text).toOption = json.fromStr text

/-- The commands read what `probeallTxs` and `dumpResultsTxs` say. -/
theorem CliEnv.Shows.readTxFiles_eq {env : CliEnv E A} {json : Json} {dir : TxDir} {path : Text}
    {order : List Text} (h : env.Shows json dir path order) :
    ∃ printed, readTxFiles env (order.map fun name => .ok (name, path ++ '/' :: name)) =
      some (printed, dumpResultsTxs json dir order) := by
  have hkeys : ∀ name ∈ order, name ∈ dir.keys := fun name hname => h.perm.subset hname
  generalize order = names at hkeys
  induction names with
  | nil => exact ⟨[], rfl⟩
  | cons name names ih =>
    obtain ⟨printed, hrest⟩ := ih fun name' hname' => hkeys name' (List.mem_cons_of_mem _ hname')
    have hname : name ∈ dir := AList.mem_keys.mpr (hkeys name List.mem_cons_self)
    obtain ⟨text, htext⟩ := Option.isSome_iff_exists.mp (AList.lookup_isSome.mpr hname)
    have hread := h.read htext
    have hparse := h.parse text
    have htxs : readTxs json dir name = (env.txsFromStr text).toOption.getD [] := by
      rw [readTxs, htext, Option.bind_some, hparse]
    have hcons : dumpResultsTxs json dir (name :: names) =
        readTxs json dir name ++ dumpResultsTxs json dir names := List.flatMap_cons ..
    rw [List.map_cons, readTxFiles, hread]
    dsimp only
    rw [hrest, hcons, htxs]
    cases env.txsFromStr text with
    | error e => exact ⟨_, rfl⟩
    | ok txs => exact ⟨_, rfl⟩

/-- So both commands go on with the transactions that are in the files. -/
theorem CliEnv.Shows.withTxs_eq {env : CliEnv E A} {json : Json} {dir : TxDir} {path : Text}
    {order : List Text} (h : env.Shows json dir path order) (printed : List Text)
    (rest : List Text → List Transaction → Option (Reply E)) :
    ∃ printed', withTxs env path printed rest = rest printed' (dumpResultsTxs json dir order) := by
  obtain ⟨printed', hread⟩ := h.readTxFiles_eq
  rw [withTxs, h.entries]
  dsimp only
  rw [hread]
  exact ⟨_, rfl⟩

/-! ## When a line is answered -/

/-- The peer info does not make a slice panic: if the address resolves, the part before the `@`
has a character that ends at byte 66. -/
def PeerSafe (env : CliEnv E A) (peerInfo : Text) : Prop :=
  ∀ pubkey addr rest, peerInfo.splitOn '@' = pubkey :: addr :: rest →
    (∃ peerAddr others, env.toSocketAddrs addr = .ok (peerAddr :: others)) → CutsAt 66 pubkey

/-- The file can be read. -/
def FileSystem.Readable (files : FileSystem) (path : Text) : Prop :=
  ∃ text, files.readToString path = .ok text

/-- The directory can be listed, with all its entries, and every one of them can be read. -/
def FileSystem.DirReadable (files : FileSystem) (path : Text) : Prop :=
  ∃ entries, files.readDir path = .ok entries ∧
    ∀ entry ∈ entries, ∃ name file, entry = .ok (name, file) ∧ files.Readable file

/-- The file can be created, and no write to it fails that its buffered writer makes before it is
dropped: one each time the buffer is full. -/
def FileSystem.Takes (files : FileSystem) (path : Text) (chunks : List (List UInt8)) : Prop :=
  (∃ opened, files.create path = .ok opened) ∧
    (files.device path).TakesAll 0 (writtenPasses chunks)

/-- The file can be created, and no write to it fails, that of the drop included. -/
def FileSystem.Writable (files : FileSystem) (path : Text) (chunks : List (List UInt8)) : Prop :=
  files.Takes path chunks ∧
    ¬ (files.device path).FailsOn (writtenPasses chunks).length (leftForDrop chunks)

/-- The transactions of an entry of a directory. -/
def CliEnv.entryTxs (env : CliEnv E A) : Except IoError (Text × Text) → List Transaction
  | .error _ => []
  | .ok (_, file) =>
    match env.files.readToString file with
    | .error _ => []
    | .ok text => (env.txsFromStr text).toOption.getD []

/-- The transactions of a directory. -/
def CliEnv.dirTxs (env : CliEnv E A) (path : Text) : List Transaction :=
  match env.files.readDir path with
  | .error _ => []
  | .ok entries => entries.flatMap env.entryTxs

/-- **What the arguments and the files must be like** for the command to be answered. -/
def Command.Safe (env : CliEnv E A) : Command → List Text → Prop
  | .openchannel, peerInfo :: _ :: _ => PeerSafe env peerInfo
  | .keysend, dest :: _ => CutsAt 66 dest
  | .connectpeer, peerInfo :: _ => PeerSafe env peerInfo
  | .probeprivate, pubkey :: _ :: _ :: _ => (PublicKey.fromText E pubkey).isSome
  | .probeall, _ :: nodepath :: txpath :: _ =>
    if nodepath = "all".toList then env.files.DirReadable txpath
    else ∃ text, env.files.readToString nodepath = .ok text ∧
      ∀ nodes, env.nodesFromStr text = .ok nodes → env.files.DirReadable txpath
  | .dumpResults, resultDir :: txpath :: _ =>
    env.files.DirReadable txpath ∧
      (∀ attempt ∈ getAttemptsFound env.attempts,
        (parseUnsigned maxU64 attempt.channelId).isSome) ∧
      ∀ results, (getAttemptsFound env.attempts).mapM
          (attemptResult (txsByScid (env.dirTxs txpath))) = some results →
        env.files.Takes (resultDir ++ "/results.json".toList) (env.toWriterPretty results)
  | _, _ => True

/-- The line is text, and the command it names is safe on its arguments. -/
def LineSafe (env : CliEnv E A) (line : ByteArray) : Prop :=
  ∃ text, readLine line = some text ∧ ∀ word words command,
    splitWhitespace text = word :: words → Command.ofWord word = some command →
      command.Safe env words

section
variable (env : CliEnv E A)

theorem isSome_toCompressedPubkey_iff (hex : Text) :
    (toCompressedPubkey E hex).isSome ↔ CutsAt 66 hex := by
  rw [toCompressedPubkey, Option.isSome_map, isSome_sliceTo_iff]

theorem isSome_parsePeerInfo_iff (peerInfo : Text) :
    (parsePeerInfo env peerInfo).isSome ↔ PeerSafe env peerInfo := by
  rw [parsePeerInfo]
  split
  · rename_i pubkey addr rest hsplit
    split
    · rename_i peerAddr others haddr
      rw [Option.isSome_map, isSome_toCompressedPubkey_iff]
      constructor
      · intro hcut pubkey' addr' rest' hsplit' _
        rw [hsplit] at hsplit'
        cases hsplit'
        exact hcut
      · intro hsafe
        exact hsafe pubkey addr rest hsplit ⟨peerAddr, others, haddr⟩
    · -- an address that does not resolve is refused before the key is sliced
      rename_i hnone
      refine iff_of_true rfl ?_
      rintro pubkey' addr' rest' hsplit' ⟨peerAddr, others, haddr⟩
      rw [hsplit] at hsplit'
      cases hsplit'
      exact absurd haddr (hnone peerAddr others)
  · rename_i hnone
    refine iff_of_true rfl ?_
    intro pubkey addr rest hsplit
    exact absurd hsplit (hnone pubkey addr rest)

/-- The errors of `parse_peer_info` have an inner error. -/
theorem isSome_intoInner_of_parsePeerInfo {peerInfo : Text} {e : IoError}
    (h : parsePeerInfo env peerInfo = some (.error e)) : e.intoInner.isSome := by
  rw [parsePeerInfo] at h
  split at h
  · split at h
    · obtain ⟨pubkey, -, herror⟩ := Option.map_eq_some_iff.mp h
      cases pubkey with
      | none =>
        cases herror
        rfl
      | some pubkey => cases herror
    · cases h
      rfl
  · cases h
    rfl

theorem isSome_sayInner (printed : List Text) {e : IoError} (h : e.intoInner.isSome) :
    (sayInner printed e : Option (Reply E)).isSome := by
  obtain ⟨inner, hinner⟩ := Option.isSome_iff_exists.mp h
  rw [sayInner, hinner]
  rfl

/-- A file that cannot be read ends the node. -/
theorem sayInner_of_none (printed : List Text) {e : IoError} (h : e.intoInner = none) :
    (sayInner printed e : Option (Reply E)) = none := by
  rw [sayInner, h]
  rfl

theorem isSome_openchannel_iff (words : List Text) :
    (openchannel env words).isSome ↔ Command.openchannel.Safe env words := by
  rcases words with _ | ⟨peerInfo, _ | ⟨value, words⟩⟩
  · exact iff_of_true rfl trivial
  · exact iff_of_true rfl trivial
  · show _ ↔ PeerSafe env peerInfo
    rw [← isSome_parsePeerInfo_iff, openchannel]
    split
    · rename_i hnone
      rw [hnone]
      exact Iff.rfl
    · rename_i e herror
      rw [herror]
      exact iff_of_true (isSome_sayInner [] (isSome_intoInner_of_parsePeerInfo env herror)) rfl
    · rename_i pubkey addr hok
      rw [hok]
      refine iff_of_true ?_ rfl
      repeat' split
      all_goals rfl

theorem isSome_keysend_iff (words : List Text) :
    (keysendCommand E words).isSome ↔ Command.keysend.Safe env words := by
  rcases words with _ | ⟨dest, words⟩
  · exact iff_of_true rfl trivial
  · show _ ↔ CutsAt 66 dest
    rw [← isSome_toCompressedPubkey_iff (E := E), keysendCommand]
    split
    · rename_i hnone
      rw [hnone]
      exact Iff.rfl
    · rename_i hsome
      rw [hsome]
      exact iff_of_true rfl rfl
    · rename_i pubkey hsome
      rw [hsome]
      refine iff_of_true ?_ rfl
      repeat' split
      all_goals rfl

theorem isSome_connectpeer_iff (words : List Text) :
    (connectpeer env words).isSome ↔ Command.connectpeer.Safe env words := by
  rcases words with _ | ⟨peerInfo, words⟩
  · exact iff_of_true rfl trivial
  · show _ ↔ PeerSafe env peerInfo
    rw [← isSome_parsePeerInfo_iff, connectpeer]
    split
    · rename_i hnone
      rw [hnone]
      exact Iff.rfl
    · rename_i e herror
      rw [herror]
      exact iff_of_true (isSome_sayInner [] (isSome_intoInner_of_parsePeerInfo env herror)) rfl
    · rename_i pubkey addr hok
      rw [hok]
      refine iff_of_true ?_ rfl
      split
      all_goals rfl

/-- Closing a channel never fails on its arguments. -/
theorem isSome_closing (name : String) (request : List UInt8 → PublicKey E → Request E)
    (words : List Text) : (closing name request words).isSome := by
  unfold closing
  repeat' split
  all_goals rfl

theorem isSome_probeprivate_iff (words : List Text) :
    (probeprivate env words).isSome ↔ Command.probeprivate.Safe env words := by
  rcases words with _ | ⟨pubkey, _ | ⟨guess, _ | ⟨channelId, words⟩⟩⟩
  · exact iff_of_true rfl trivial
  · exact iff_of_true rfl trivial
  · exact iff_of_true rfl trivial
  · show _ ↔ (PublicKey.fromText E pubkey).isSome
    rw [probeprivate, probe]
    cases hkey : PublicKey.fromText E pubkey with
    | none => exact Iff.rfl
    | some source =>
      refine iff_of_true ?_ rfl
      dsimp only
      repeat' split
      all_goals rfl

/-- The files of a directory are read exactly if every one of them can be. -/
theorem isSome_readTxFiles_iff (entries : List (Except IoError (Text × Text))) :
    (readTxFiles env entries).isSome ↔
      ∀ entry ∈ entries, ∃ name file, entry = .ok (name, file) ∧ env.files.Readable file := by
  induction entries with
  | nil => exact iff_of_true rfl (by simp)
  | cons entry entries ih =>
    rw [List.forall_mem_cons, ← ih]
    rcases entry with e | ⟨name, file⟩
    · refine iff_of_false Bool.false_ne_true ?_
      rintro ⟨⟨name, file, herror, -⟩, -⟩
      cases herror
    · rw [readTxFiles]
      cases hread : env.files.readToString file with
      | error e =>
        -- the error has no inner error to print
        dsimp only
        rw [env.files.readToString_intoInner hread]
        refine iff_of_false Bool.false_ne_true ?_
        rintro ⟨⟨name', file', heq, text, htext⟩, -⟩
        cases heq
        rw [hread] at htext
        cases htext
      | ok text =>
        have hreadable : ∃ name' file', (Except.ok (name, file) : Except IoError (Text × Text)) =
            .ok (name', file') ∧ env.files.Readable file' := ⟨name, file, rfl, text, hread⟩
        rw [and_iff_right hreadable]
        dsimp only
        split
        · rw [Option.isSome_map]
        · rw [Option.isSome_map]

/-- What is read from the entries is what they have. -/
theorem readTxFiles_snd {entries : List (Except IoError (Text × Text))}
    {read : List Text × List Transaction} (h : readTxFiles env entries = some read) :
    read.2 = entries.flatMap env.entryTxs := by
  induction entries generalizing read with
  | nil =>
    cases h
    rfl
  | cons entry entries ih =>
    rcases entry with e | ⟨name, file⟩
    · cases h
    · rw [readTxFiles] at h
      rw [List.flatMap_cons, CliEnv.entryTxs]
      cases hread : env.files.readToString file with
      | error e =>
        rw [hread] at h
        dsimp only at h
        rw [env.files.readToString_intoInner hread] at h
        cases h
      | ok text =>
        rw [hread] at h
        dsimp only at h ⊢
        split at h
        · rename_i hparse
          obtain ⟨rest, hrest, rfl⟩ := Option.map_eq_some_iff.mp h
          rw [hparse, ← ih hrest]
          rfl
        · rename_i newTxs hparse
          obtain ⟨rest, hrest, rfl⟩ := Option.map_eq_some_iff.mp h
          rw [hparse, ← ih hrest]
          rfl

/-- Both commands that read the directory need all of it, and go on with its transactions. -/
theorem isSome_withTxs_iff (txpath : Text) (printed : List Text)
    {rest : List Text → List Transaction → Option (Reply E)} {P : Prop}
    (hrest : ∀ printed, (rest printed (env.dirTxs txpath)).isSome ↔ P) :
    (withTxs env txpath printed rest).isSome ↔ env.files.DirReadable txpath ∧ P := by
  have hdirReadable : env.files.DirReadable txpath ↔
      ∃ entries, env.files.readDir txpath = .ok entries ∧ (readTxFiles env entries).isSome := by
    simp only [FileSystem.DirReadable, isSome_readTxFiles_iff]
  rw [withTxs, hdirReadable]
  cases hdir : env.files.readDir txpath with
  | error e =>
    dsimp only
    rw [sayInner_of_none printed (env.files.readDir_intoInner hdir)]
    refine iff_of_false Bool.false_ne_true ?_
    rintro ⟨⟨entries, hentries, -⟩, -⟩
    cases hentries
  | ok entries =>
    dsimp only
    cases hread : readTxFiles env entries with
    | none =>
      refine iff_of_false Bool.false_ne_true ?_
      rintro ⟨⟨entries', hentries', hsome⟩, -⟩
      cases hentries'
      rw [hread] at hsome
      cases hsome
    | some read =>
      have htxs : read.2 = env.dirTxs txpath := by
        rw [readTxFiles_snd env hread, CliEnv.dirTxs, hdir]
      rw [Option.bind_some, htxs, hrest, and_iff_right]
      refine ⟨entries, rfl, ?_⟩
      rw [hread]
      rfl

theorem isSome_probeNodes_iff (printed : List Text) (probetype : Text) (nodes : List Text)
    (txpath : Text) :
    (probeNodes env printed probetype nodes txpath).isSome ↔ env.files.DirReadable txpath := by
  rw [probeNodes, isSome_withTxs_iff env txpath printed (fun _ => iff_of_true rfl trivial),
    and_true]

theorem isSome_probeall_iff (words : List Text) :
    (probeall env words).isSome ↔ Command.probeall.Safe env words := by
  rcases words with _ | ⟨probetype, _ | ⟨nodepath, _ | ⟨txpath, words⟩⟩⟩
  · exact iff_of_true rfl trivial
  · exact iff_of_true rfl trivial
  · exact iff_of_true rfl trivial
  · rw [probeall, Command.Safe]
    by_cases hall : nodepath = "all".toList
    · rw [if_pos hall, if_pos hall, isSome_probeNodes_iff]
    · rw [if_neg hall, if_neg hall]
      cases hread : env.files.readToString nodepath with
      | error e =>
        dsimp only
        rw [sayInner_of_none [] (env.files.readToString_intoInner hread)]
        refine iff_of_false Bool.false_ne_true ?_
        rintro ⟨text, htext, -⟩
        cases htext
      | ok text =>
        dsimp only
        cases hnodes : env.nodesFromStr text with
        | error e =>
          refine iff_of_true rfl ⟨text, rfl, fun nodes h => ?_⟩
          rw [hnodes] at h
          cases h
        | ok nodes =>
          dsimp only
          rw [isSome_probeNodes_iff]
          constructor
          · exact fun hdir => ⟨text, rfl, fun _ _ => hdir⟩
          · rintro ⟨text', htext', hdir⟩
            cases htext'
            exact hdir nodes hnodes

theorem isSome_mapM_iff {α β : Type} (f : α → Option β) (xs : List α) :
    (xs.mapM f).isSome ↔ ∀ x ∈ xs, (f x).isSome := by
  induction xs with
  | nil => exact iff_of_true rfl (by simp)
  | cons x xs ih =>
    rw [List.mapM_cons, List.forall_mem_cons, ← ih]
    cases f x with
    | none => simp
    | some y => cases xs.mapM f <;> simp

/-- What the file has taken when the writer is dropped, if no write has failed. -/
theorem writeResultsTo_taken {files : FileSystem} {path : Text} {chunks : List (List UInt8)}
    (h : files.Writable path chunks) (opened : Files Text UInt8 × Nat) :
    ((writeResultsTo (files.device path) opened chunks).1.drop
      (files.device path)).handle.taken = chunks.flatten :=
  (BufWriter.taken_drop_writeChunks_iff opened.1 opened.2 h.1.2).mpr h.2

theorem writeResultsTo_ok_iff (device : Device) (opened : Files Text UInt8 × Nat)
    (chunks : List (List UInt8)) :
    (writeResultsTo device opened chunks).2 = true ↔ device.TakesAll 0 (writtenPasses chunks) :=
  (BufWriter.writeChunks_makes (BufWriter.new opened.1 opened.2) chunks).ok_iff

/-- A text that is shorter than the buffer is not written before the drop. -/
theorem FileSystem.takes_of_lt (files : FileSystem) {path : Text} {chunks : List (List UInt8)}
    (hcreate : ∃ opened, files.create path = .ok opened)
    (hlt : chunks.flatten.length < bufWriterCapacity) : files.Takes path chunks := by
  refine ⟨hcreate, ?_⟩
  rw [writtenPasses, layout_of_lt (by rw [List.length_nil]; omega)]
  trivial

/-- The results are handed over exactly if every row has a number for its channel, the file can be
created, and it takes what is written before the drop. -/
theorem isSome_writeResults_iff (resultDir : Text) (printed : List Text) (txs : List Transaction) :
    (writeResults env resultDir printed txs).isSome ↔
      (∀ attempt ∈ getAttemptsFound env.attempts,
        (parseUnsigned maxU64 attempt.channelId).isSome) ∧
      ∀ results, (getAttemptsFound env.attempts).mapM (attemptResult (txsByScid txs)) =
          some results →
        env.files.Takes (resultDir ++ "/results.json".toList) (env.toWriterPretty results) := by
  have hnumbers : (∀ attempt ∈ getAttemptsFound env.attempts,
      (parseUnsigned maxU64 attempt.channelId).isSome) ↔
      ((getAttemptsFound env.attempts).mapM (attemptResult (txsByScid txs))).isSome := by
    rw [isSome_mapM_iff]
    simp only [attemptResult, Option.isSome_map]
  rw [hnumbers, writeResults]
  generalize resultDir ++ "/results.json".toList = path
  cases (getAttemptsFound env.attempts).mapM (attemptResult (txsByScid txs)) with
  | none => exact iff_of_false Bool.false_ne_true fun h => Bool.false_ne_true h.1
  | some results =>
    have hone : (∀ results', some results = some results' →
        env.files.Takes path (env.toWriterPretty results')) ↔
          env.files.Takes path (env.toWriterPretty results) := by simp
    rw [Option.bind_some, hone, and_iff_right Option.isSome_some, FileSystem.Takes]
    dsimp only
    cases env.files.create path with
    | error e =>
      refine iff_of_false Bool.false_ne_true ?_
      rintro ⟨⟨opened, hopened⟩, -⟩
      cases hopened
    | ok opened =>
      rw [and_iff_right ⟨opened, rfl⟩, ← writeResultsTo_ok_iff _ opened]
      dsimp only
      split
      · rename_i hok
        exact iff_of_true rfl hok
      · rename_i hfailed
        exact iff_of_false Bool.false_ne_true hfailed

theorem isSome_dumpResults_iff (words : List Text) :
    (dumpResults env words).isSome ↔ Command.dumpResults.Safe env words := by
  rcases words with _ | ⟨resultDir, _ | ⟨txpath, words⟩⟩
  · exact iff_of_true rfl trivial
  · exact iff_of_true rfl trivial
  · exact isSome_withTxs_iff env txpath [] fun printed =>
      isSome_writeResults_iff env resultDir printed _

theorem isSome_run_iff (command : Command) (words : List Text) :
    (command.run env words).isSome ↔ command.Safe env words := by
  cases command with
  | openchannel => exact isSome_openchannel_iff env words
  | keysend => exact isSome_keysend_iff env words
  | connectpeer => exact isSome_connectpeer_iff env words
  | closechannel => exact iff_of_true (isSome_closing _ _ words) trivial
  | forceclosechannel => exact iff_of_true (isSome_closing _ _ words) trivial
  | probeprivate => exact isSome_probeprivate_iff env words
  | probeall => exact isSome_probeall_iff env words
  | dumpResults => exact isSome_dumpResults_iff env words

end

/-- **A line is answered exactly if it is safe.**  For every line of bytes, every state of the
files and directories it names, and whatever else the commands read. -/
theorem line_answered_iff (env : CliEnv E A) (line : ByteArray) :
    (∃ reply, pollForUserInput env line = some reply) ↔ LineSafe env line := by
  rw [← Option.isSome_iff_exists, pollForUserInput, LineSafe]
  cases readLine line with
  | none =>
    refine iff_of_false Bool.false_ne_true ?_
    rintro ⟨text, htext, -⟩
    cases htext
  | some text =>
    have htext : (∃ text', some text = some text' ∧ ∀ word words command,
        splitWhitespace text' = word :: words → Command.ofWord word = some command →
          command.Safe env words) ↔ ∀ word words command,
        splitWhitespace text = word :: words → Command.ofWord word = some command →
          command.Safe env words := by
      simp
    rw [htext]
    dsimp only
    cases splitWhitespace text with
    | nil => exact iff_of_true rfl (by simp)
    | cons word words =>
      dsimp only
      cases hword : Command.ofWord word with
      | none =>
        refine iff_of_true rfl ?_
        intro word' words' command heq hcommand
        cases heq
        rw [hword] at hcommand
        cases hcommand
      | some command =>
        rw [isSome_run_iff]
        constructor
        · intro hsafe word' words' command' heq hcommand
          cases heq
          rw [hword] at hcommand
          cases hcommand
          exact hsafe
        · intro hsafe
          exact hsafe word words command rfl hword

/-! ## Lines that end the node -/

/-- No file is there: every call returns `ENOENT`. -/
def noFiles : FileSystem where
  readToString _ := .error (.os 2)
  readDir _ := .error (.os 2)
  create _ := .error (.os 2)
  device _ _ := some 0
  readToString_intoInner h := by
    cases h
    rfl
  readDir_intoInner h := by
    cases h
    rfl

/-- A node without files, peers and payments. -/
def sampleEnv : CliEnv sampleKeys Unit where
  files := noFiles
  nodesFromStr _ := .ok []
  txsFromStr _ := .ok []
  toWriterPretty _ := []
  toSocketAddrs _ := .ok [()]
  connectPeerIfNecessary _ _ := false
  graphNodes := []
  shortChannelIds := []
  attempts := []
  us := ourKey
  router _ _ := none
  sendAlongPath _ := .failed
  preimage := []
  paymentHash := []
  pendingPayments := ∅

/-- A key that is too short, a key that is none, and a file that is not there. -/
theorem lines_abort :
    pollForUserInput sampleEnv "keysend 02ab 1000".toList.utf8Encode = none ∧
    pollForUserInput sampleEnv "connectpeer 02ab@127.0.0.1:9735".toList.utf8Encode = none ∧
    pollForUserInput sampleEnv "probeprivate 02ab 02ab 1".toList.utf8Encode = none ∧
    pollForUserInput sampleEnv "probeall normal nodes.json txs".toList.utf8Encode = none ∧
    pollForUserInput sampleEnv "dump_results out txs".toList.utf8Encode = none := by
  refine ⟨?_, ?_, ?_, ?_, ?_⟩
  all_goals
    rw [pollForUserInput, readLine_utf8Encode]
    decide +kernel

end HiddenLightning
