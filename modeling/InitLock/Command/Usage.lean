import InitLock.Command.Line

/-!
# Usage

What the program says about its command line: its version, how it is used, and
why a line is refused.
-/

namespace InitLock.Command

def program : String := "etcdadm-lock"

def version : String := program ++ " 0.1.0"

def usage : String :=
  String.intercalate "\n"
    ["etcdadm-lock - inspect and manage etcd initialization locks", "",
      "Usage: etcdadm-lock [OPTIONS] <COMMAND>", "",
      "Commands:",
      "  status  Show who holds a cluster's lock",
      "  lock    Try once to acquire a cluster's lock for a machine",
      "  unlock  Release a cluster's lock regardless of holder", "",
      "Options:",
      "  --kubeconfig <KUBECONFIG>              Path to kubeconfig [env: KUBECONFIG]",
      "  --log-format <LOG_FORMAT>              Log output format, json or text " ++
        "[env: ETCDADM_LOG_FORMAT]",
      "  --holder-namespace <HOLDER_NAMESPACE>  Namespace in which holder Machines are looked " ++
        "up [env: ETCDADM_HOLDER_NAMESPACE]",
      "  --cluster <CLUSTER>                    Cluster name",
      "  --namespace, -n <NAMESPACE>            Cluster namespace [default: default]",
      "  --cluster-uid <CLUSTER_UID>            Cluster UID, recorded as owner of new lock records",
      "  --machine <MACHINE>                    Machine to record as holder (lock)",
      "  --json                                 Print JSON instead of text (status)",
      "  --help, -h                             Print help",
      "  --version, -V                          Print version"]

namespace LineError

def message : LineError → String
  | missingRequired => "error: a required argument was not provided"
  | unknownArgument => "error: unexpected argument found"
  | conflict => "error: an argument cannot be used multiple times"
  | invalidValue => "error: a value is required for an argument but none was supplied"
  | valueRefused => "error: invalid value for an argument"
  | tooManyValues => "error: unexpected value for an argument"
  | unknownCommand => "error: unrecognized subcommand"
  | missingCommand => "error: a subcommand was not provided"
  | help => usage
  | version => Command.version
  | helpForMissingCommand => usage

/-- Whether the line asked for what it got. -/
def isAnswer : LineError → Bool
  | help => true
  | version => true
  | _ => false

end LineError

end InitLock.Command
