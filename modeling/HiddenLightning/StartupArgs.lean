import HiddenLightning.InternetAddresses
import HiddenLightning.Words

/-! # The arguments of the program

`parse_startup_args` (`cli.rs`) takes its arguments by position.  The third may be the listening
port or already the network, so all that follows stands one place further on if it reads as a
port; the credentials of the first are cut off at its last `@`, since a password may contain
one.  `startup_args_read` says that every argument vector of the usage message is read as it was
written, with all of its addresses.
-/
namespace HiddenLightning
open Numerals Words InternetAddresses

/-! ## Reading -/

/-- How the function ends without a result. -/
inductive StartupFault where
  /-- A line is printed and `Err(())` returned. -/
  | refused (line : Text)
  /-- `panic!`. -/
  | panicked (message : Text)
  /-- The `unwrap` of a `None` or an `Err`. -/
  | unwrapped
deriving DecidableEq

/-- `bitcoin::Network`. -/
inductive BitcoinNetwork where
  | bitcoin
  | testnet
  | regtest
  | signet
deriving DecidableEq

/-- An array of bytes. -/
abbrev Octets (n : Nat) := { bytes : List UInt8 // bytes.length = n }

/-- The addresses of `NetAddress` that the arguments can give. -/
inductive NetAddress where
  | ipv4 (addr : Octets 4) (port : UInt16)
  | ipv6 (addr : Octets 16) (port : UInt16)
deriving DecidableEq

/-- `LdkUserInfo`. -/
structure LdkUserInfo where
  bitcoindRpcUsername : Text
  bitcoindRpcPassword : Text
  bitcoindRpcPort : UInt16
  bitcoindRpcHost : Text
  ldkStorageDirPath : Text
  ldkPeerListeningPort : UInt16
  ldkAnnouncedListenAddr : List NetAddress
  ldkAnnouncedNodeName : Octets 32
  network : BitcoinNetwork
deriving DecidableEq

/-- `rsplitn(2, ..)`: what follows the last separator, then what stands before it. -/
def rsplitnTwo (separator : Char) (s : Text) : List Text :=
  match s.reverse.dropWhile (· ≠ separator) with
  | [] => [s]
  | _ :: front => [(s.reverse.takeWhile (· ≠ separator)).reverse, front.reverse]

/-- The credentials, the host and the port of the RPC server. -/
structure RpcInfo where
  username : Text
  password : Text
  host : Text
  port : UInt16
deriving DecidableEq

/-- The first argument. -/
def parseRpcInfo (bitcoindRpcInfo : Text) : Except StartupFault RpcInfo :=
  match rsplitnTwo '@' bitcoindRpcInfo with
  | [rpcPath, userAndPassword] =>
    match userAndPassword.splitOn ':' with
    | [username, password] =>
      match rpcPath.splitOn ':' with
      | [host, port] =>
        match parseUnsigned 65535 port with
        | some port => .ok ⟨username, password, host, UInt16.ofNat port⟩
        | none => .error .unwrapped
      | _ => .error (.refused "ERROR: bad bitcoind RPC path provided".toList)
    | _ => .error (.refused "ERROR: bad bitcoind RPC username/password combo provided".toList)
  | _ => .error (.refused "ERROR: bad bitcoind RPC URL provided".toList)

/-- The listening port, and whether the third argument was one. -/
def listeningPort (arg : Option Text) : UInt16 × Bool :=
  match arg.bind (parseUnsigned 65535) with
  | some port => (UInt16.ofNat port, true)
  | none => (9735, false)

/-- The network, by its name. -/
def parseNetwork : Option Text → Except StartupFault BitcoinNetwork
  | some net =>
    if net = "mainnet".toList then .ok .bitcoin
    else if net = "testnet".toList then .ok .testnet
    else if net = "regtest".toList then .ok .regtest
    else if net = "signet".toList then .ok .signet
    else .error (.panicked ("Unsupported network provided. Options are: ".toList ++
      "`regtest`, `testnet`, and `signet`. Got ".toList ++ net))
  | none => .ok .testnet

/-- `str::as_bytes`. -/
def utf8Bytes (s : Text) : List UInt8 := s.flatMap String.utf8EncodeChar

theorem length_utf8Bytes (s : Text) : (utf8Bytes s).length = byteLength s := by
  rw [utf8Bytes, List.length_flatMap, byteLength]
  simp only [String.length_utf8EncodeChar]

theorem utf8Bytes_append (s t : Text) : utf8Bytes (s ++ t) = utf8Bytes s ++ utf8Bytes t :=
  List.flatMap_append ..

/-- A name, followed by zeros. -/
def paddedName (s : Text) (h : byteLength s ≤ 32) : Octets 32 :=
  ⟨utf8Bytes s ++ List.replicate (32 - byteLength s) 0, by
    rw [List.length_append, length_utf8Bytes, List.length_replicate]
    omega⟩

/-- The name of the node, and the index of the argument read last. -/
def announcedNodeName (args : List Text) (argIdx : Nat) : Except StartupFault (Octets 32 × Nat) :=
  match args[argIdx + 1]? with
  | some s =>
    if h : byteLength s ≤ 32 then .ok (paddedName s h, argIdx + 1)
    else .error (.panicked "Node Alias can not be longer than 32 bytes".toList)
  | none => .ok (paddedName [] (by decide), argIdx)

/-- The announced address, with the listening port. -/
def NetAddress.ofIpAddr (port : UInt16) : IpAddr → NetAddress
  | .v4 a => .ipv4 ⟨a.octets, rfl⟩ port
  | .v6 a => .ipv6 ⟨a.octets, a.length_octets⟩ port

/-- The loop over the addresses, from the argument after the one read last. -/
def announcedListenAddrs (args : List Text) (port : UInt16) (argIdx : Nat)
    (addrs : List NetAddress) : Except StartupFault (List NetAddress × Nat) :=
  match _h : args[argIdx + 1]? with
  | some s =>
    match IpAddr.fromStr s with
    | some addr => announcedListenAddrs args port (argIdx + 1) (addrs ++ [.ofIpAddr port addr])
    | none => .error (.panicked
        "Failed to parse announced-listen-addr into an IP address".toList)
  | none => .ok (addrs, argIdx)
termination_by args.length - argIdx
decreasing_by
  have hlt := (List.getElem?_eq_some_iff.mp _h).1
  omega

/-- `unwrap`. -/
def unwrapArg : Option Text → Except StartupFault Text
  | some s => .ok s
  | none => .error .unwrapped

/-- `parse_startup_args`, with the index of the argument read last. -/
def readStartupArgs (args : List Text) : Except StartupFault (LdkUserInfo × Nat) := do
  let bitcoindRpcInfo ← unwrapArg args[1]?
  let rpc ← parseRpcInfo bitcoindRpcInfo
  let ldkStorageDirPath ← unwrapArg args[2]?
  let (ldkPeerListeningPort, ldkPeerPortSet) := listeningPort args[3]?
  let argIdx := if ldkPeerPortSet then 4 else 3
  let network ← parseNetwork args[argIdx]?
  let (ldkAnnouncedNodeName, argIdx) ← announcedNodeName args argIdx
  let (ldkAnnouncedListenAddr, argIdx) ←
    announcedListenAddrs args ldkPeerListeningPort argIdx []
  pure ({
    bitcoindRpcUsername := rpc.username
    bitcoindRpcPassword := rpc.password
    bitcoindRpcPort := rpc.port
    bitcoindRpcHost := rpc.host
    ldkStorageDirPath
    ldkPeerListeningPort
    ldkAnnouncedListenAddr
    ldkAnnouncedNodeName
    network }, argIdx)

/-- `parse_startup_args`, on the arguments with the name of the program before them. -/
def parseStartupArgs (args : List Text) : Except StartupFault LdkUserInfo :=
  (readStartupArgs args).map Prod.fst

/-! ## Writing -/

/-- The name of a network in the arguments. -/
def BitcoinNetwork.argument : BitcoinNetwork → Text
  | .bitcoin => "mainnet".toList
  | .testnet => "testnet".toList
  | .regtest => "regtest".toList
  | .signet => "signet".toList

/-- An address to announce, in one of its spellings. -/
structure ListenAddr where
  text : Text
  addr : IpAddr
  fromStr_text : IpAddr.fromStr text = some addr

/-- A node name, and the addresses that may follow it. -/
structure Announcement where
  name : Text
  addrs : List ListenAddr
  byteLength_name : byteLength name ≤ 32

/-- The values of the usage message: a name only with a network, addresses only with a name. -/
structure StartupArgs where
  username : Text
  password : Text
  host : Text
  rpcPort : UInt16
  storageDirPath : Text
  listeningPort : Option UInt16
  network : Option (BitcoinNetwork × Option Announcement)
  colon_username : ':' ∉ username
  colon_password : ':' ∉ password
  at_host : '@' ∉ host
  colon_host : ':' ∉ host

namespace StartupArgs

variable (a : StartupArgs)

/-- The first argument. -/
def rpcInfo : Text :=
  a.username ++ ':' :: a.password ++ '@' :: (a.host ++ ':' :: decimal a.rpcPort.toNat)

/-- The arguments from the name of the node on. -/
def announcementArgs : Option Announcement → List Text
  | none => []
  | some announcement => announcement.name :: announcement.addrs.map ListenAddr.text

/-- The arguments from the network on. -/
def networkArgs : List Text :=
  match a.network with
  | none => []
  | some (network, announcement) => network.argument :: announcementArgs announcement

/-- The argument vector. -/
def render (program : Text) : List Text :=
  program :: a.rpcInfo :: a.storageDirPath ::
    (a.listeningPort.toList.map (fun port => decimal port.toNat) ++ a.networkArgs)

/-- The listening port, 9735 if there is none. -/
def port : UInt16 := a.listeningPort.getD 9735

/-- The announcement, if there is one. -/
def announcement : Option Announcement := a.network.bind Prod.snd

/-- The name, of zeros if there is none. -/
def nodeName : Octets 32 :=
  match a.announcement with
  | none => ⟨List.replicate 32 0, rfl⟩
  | some announcement => paddedName announcement.name announcement.byteLength_name

/-- What is to be read. -/
def info : LdkUserInfo where
  bitcoindRpcUsername := a.username
  bitcoindRpcPassword := a.password
  bitcoindRpcPort := a.rpcPort
  bitcoindRpcHost := a.host
  ldkStorageDirPath := a.storageDirPath
  ldkPeerListeningPort := a.port
  ldkAnnouncedListenAddr :=
    (a.announcement.elim [] Announcement.addrs).map fun listen => .ofIpAddr a.port listen.addr
  ldkAnnouncedNodeName := a.nodeName
  network := (a.network.map Prod.fst).getD .testnet

end StartupArgs

/-! ## Reading what was written -/

theorem rsplitnTwo_append {separator : Char} {back : Text} (h : separator ∉ back) (front : Text) :
    rsplitnTwo separator (front ++ separator :: back) = [back, front] := by
  have hback : ∀ c ∈ back.reverse, decide (c ≠ separator) = true := by
    intro c hc
    refine decide_eq_true ?_
    rintro rfl
    exact h (List.mem_reverse.mp hc)
  have hreverse : (front ++ separator :: back).reverse =
      back.reverse ++ separator :: front.reverse := by
    rw [List.reverse_append, List.reverse_cons, List.append_assoc]
    rfl
  rw [rsplitnTwo, hreverse, List.dropWhile_append_of_pos hback, List.takeWhile_append_of_pos hback]
  simp

theorem parseRpcInfo_rpcInfo (a : StartupArgs) :
    parseRpcInfo a.rpcInfo = .ok ⟨a.username, a.password, a.host, a.rpcPort⟩ := by
  have hat : '@' ∉ a.host ++ ':' :: decimal a.rpcPort.toNat := by
    rw [List.mem_append, List.mem_cons, not_or, not_or]
    exact ⟨a.at_host, by decide, notMem_decimal (by decide)⟩
  have hcolon : ':' ∉ decimal a.rpcPort.toNat := notMem_decimal (by decide)
  rw [parseRpcInfo, StartupArgs.rpcInfo, rsplitnTwo_append hat]
  simp only [List.splitOn_append_cons_self_of_not_mem a.colon_username,
    List.splitOn_append_cons_self_of_not_mem a.colon_host, List.splitOn_eq_singleton hcolon,
    List.splitOn_eq_singleton a.colon_password, parseUnsigned_uint16, UInt16.ofNat_toNat]

theorem parseNetwork_argument (network : BitcoinNetwork) :
    parseNetwork (some network.argument) = .ok network := by
  cases network <;> decide

theorem parseUnsigned_argument (network : BitcoinNetwork) :
    parseUnsigned 65535 network.argument = none := by
  have hplus : withoutPlus network.argument = network.argument := by
    cases network <;> rfl
  have hletter : 't' ∈ network.argument := by
    cases network <;> decide
  have hdigits : readDigits network.argument = none :=
    if_neg fun h => absurd (h.2 't' hletter) (by decide)
  rw [parseUnsigned, hplus, hdigits]
  rfl

/-- The third argument is taken for the port exactly if there is one. -/
theorem listeningPort_render (a : StartupArgs) (program : Text) :
    listeningPort (a.render program)[3]? = (a.port, a.listeningPort.isSome) := by
  rw [StartupArgs.render, StartupArgs.port, listeningPort]
  cases hport : a.listeningPort with
  | some port => simp [parseUnsigned_uint16]
  | none =>
    rw [StartupArgs.networkArgs]
    cases hnetwork : a.network with
    | none => rfl
    | some network => simp [parseUnsigned_argument]

/-- What follows from there is the network and the rest. -/
theorem drop_render (a : StartupArgs) (program : Text) :
    (a.render program).drop (if a.listeningPort.isSome then 4 else 3) = a.networkArgs := by
  rw [StartupArgs.render]
  cases a.listeningPort with
  | none => rfl
  | some port => rfl

variable {args : List Text} {argIdx : Nat}

/-- **The loop reads all addresses**, whatever was read before. -/
theorem announcedListenAddrs_eq {listen : List ListenAddr}
    (h : args.drop (argIdx + 1) = listen.map ListenAddr.text) (port : UInt16)
    (addrs : List NetAddress) :
    announcedListenAddrs args port argIdx addrs =
      .ok (addrs ++ listen.map fun l => .ofIpAddr port l.addr, argIdx + listen.length) := by
  induction listen generalizing argIdx addrs with
  | nil =>
    have hnext : args[argIdx + 1]? = none := by
      rw [← List.head?_drop, h]
      rfl
    rw [announcedListenAddrs]
    split
    · rename_i hsome
      rw [hnext] at hsome
      cases hsome
    · rw [List.map_nil, List.append_nil]
      rfl
  | cons l listen ih =>
    have hnext : args[argIdx + 1]? = some l.text := by
      rw [← List.head?_drop, h]
      rfl
    have hrest : args.drop (argIdx + 1 + 1) = listen.map ListenAddr.text := by
      rw [← List.tail_drop, h]
      rfl
    rw [announcedListenAddrs]
    split
    · rename_i s hsome
      cases hnext.symm.trans hsome
      rw [l.fromStr_text]
      refine (ih hrest _).trans ?_
      rw [List.append_assoc, List.length_cons, Nat.add_right_comm argIdx, Nat.add_assoc argIdx]
      rfl
    · rename_i hnone
      rw [hnext] at hnone
      cases hnone

variable {a : StartupArgs}

theorem parseNetwork_drop (h : args.drop argIdx = a.networkArgs) :
    parseNetwork args[argIdx]? = .ok a.info.network := by
  rw [← List.head?_drop, h, StartupArgs.networkArgs, StartupArgs.info]
  cases a.network with
  | none => rfl
  | some network => exact parseNetwork_argument network.1

/-- The name is read if there is one, and the addresses follow. -/
theorem announcedNodeName_drop (h : args.drop argIdx = a.networkArgs) :
    ∃ last, announcedNodeName args argIdx = .ok (a.nodeName, last) ∧
      args.drop (last + 1) = (a.announcement.elim [] Announcement.addrs).map ListenAddr.text := by
  have htail : args.drop (argIdx + 1) = a.networkArgs.tail := by
    rw [← List.tail_drop, h]
  have hnext : args[argIdx + 1]? = a.networkArgs.tail.head? := by
    rw [← List.head?_drop, htail]
  rw [announcedNodeName, hnext, StartupArgs.nodeName, StartupArgs.announcement]
  rw [StartupArgs.networkArgs] at htail ⊢
  generalize a.network = network at htail ⊢
  rcases network with _ | ⟨network, _ | announcement⟩
  · exact ⟨argIdx, rfl, htail⟩
  · exact ⟨argIdx, rfl, htail⟩
  · refine ⟨argIdx + 1, dif_pos announcement.byteLength_name, ?_⟩
    rw [← List.tail_drop, htail]
    rfl

/-- **The arguments are read as they were written.**  For all values of the usage message, with
any of the optional ones: the result has exactly these values, and no argument is left when
the loop over the addresses ends.  Every address has a text that can be given. -/
theorem startup_args_read (a : StartupArgs) (program : Text) :
    parseStartupArgs (a.render program) = .ok a.info ∧
    (∃ last, readStartupArgs (a.render program) = .ok (a.info, last) ∧
      (a.render program).drop (last + 1) = []) ∧
    ∀ addr : IpAddr, IpAddr.fromStr addr.toText = some addr := by
  have hdrop := drop_render a program
  obtain ⟨index, hname, haddrs⟩ := announcedNodeName_drop hdrop
  have hloop := announcedListenAddrs_eq haddrs a.port []
  have hread : readStartupArgs (a.render program) = .ok (a.info,
      index + (a.announcement.elim [] Announcement.addrs).length) := by
    have hrpc : (a.render program)[1]? = some a.rpcInfo := rfl
    have hpath : (a.render program)[2]? = some a.storageDirPath := rfl
    rw [readStartupArgs, hrpc, hpath, listeningPort_render]
    simp only [unwrapArg, bind, Except.bind, parseRpcInfo_rpcInfo, parseNetwork_drop hdrop, hname,
      hloop]
    rfl
  refine ⟨?_, ⟨_, hread, ?_⟩, fromStr_toText⟩
  · rw [parseStartupArgs, hread]
    rfl
  · rw [Nat.add_right_comm, ← List.drop_drop, haddrs]
    exact List.drop_eq_nil_of_le (by rw [List.length_map])

/-- All arguments, with `@` in the credentials and an address of each kind. -/
def sampleArgs : StartupArgs where
  username := "al@ice".toList
  password := "p@ss".toList
  host := "localhost".toList
  rpcPort := 8332
  storageDirPath := "data".toList
  listeningPort := some 9736
  network := some (.signet, some
    { name := "node".toList
      addrs := [⟨"127.0.0.1".toList, .v4 ⟨127, 0, 0, 1⟩, by decide⟩,
        ⟨"::1".toList, .v6 ⟨[0, 0, 0, 0, 0, 0, 0, 1], rfl⟩, by decide⟩]
      byteLength_name := by decide })
  colon_username := by decide
  colon_password := by decide
  at_host := by decide
  colon_host := by decide

/-- They are read back. -/
theorem startup_args_read_sample :
    parseStartupArgs (["hidden", "al@ice:p@ss@localhost:8332", "data", "9736", "signet", "node",
        "127.0.0.1", "::1"].map String.toList) = .ok sampleArgs.info ∧
      sampleArgs.info.ldkAnnouncedListenAddr =
        [.ipv4 ⟨[127, 0, 0, 1], rfl⟩ 9736,
          .ipv6 ⟨[0, 0, 0, 0, 0, 0, 0, 0, 0, 0, 0, 0, 0, 0, 0, 1], rfl⟩ 9736] :=
  ⟨(startup_args_read sampleArgs "hidden".toList).1, by decide⟩

end HiddenLightning
