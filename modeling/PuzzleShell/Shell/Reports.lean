/-!
# Reports

What the commands that inspect the machine print. Nothing of it depends on the state.
-/

namespace PuzzleShell.Shell

def processes : List String := [
  "    PID TTY          TIME CMD",
  "   1042 pts/0    00:00:00 bash",
  "   1187 pts/0    00:00:00 ps"]

def allProcesses : List String := [
  "USER         PID %CPU %MEM    VSZ   RSS TTY      STAT START   TIME COMMAND",
  "root           1  0.0  0.1 167744 11520 ?        Ss   08:00   0:02 /sbin/init",
  "root         412  0.0  0.0  15420  6912 ?        Ss   08:00   0:00 /usr/sbin/sshd -D",
  "root         523  0.0  0.0   9412  2816 ?        Ss   08:00   0:00 /usr/sbin/cron -f",
  "syslog       530  0.0  0.0 224344  5120 ?        Ssl  08:00   0:00 /usr/sbin/rsyslogd -n",
  "www-data     611  0.1  0.2  55280  8448 ?        S    08:01   0:01 nginx: worker process",
  "mysql        702  0.5  4.1 1732144 337920 ?      Ssl  08:01   0:42 /usr/sbin/mysqld",
  "user        1042  0.0  0.0  10144  5376 pts/0    Ss   09:12   0:00 -bash",
  "user        1187  0.0  0.0  10808  3456 pts/0    R+   09:15   0:00 ps aux"]

def memory : List String := [
  "              total        used        free      shared  buff/cache   available",
  "Mem:        8152044     2345124     3456780      123456     2350140     5432100",
  "Swap:       2097148           0     2097148"]

def memoryInUnits : List String := [
  "              total        used        free      shared  buff/cache   available",
  "Mem:          7.8Gi       2.2Gi       3.3Gi       120Mi       2.2Gi       5.2Gi",
  "Swap:         2.0Gi          0B       2.0Gi"]

def disks : List String := [
  "Filesystem     1K-blocks     Used Available Use% Mounted on",
  "/dev/sda1       41152736 18734560  20304632  48% /",
  "tmpfs            4076020        0   4076020   0% /dev/shm",
  "/dev/sda2      102687672 61612603  35832260  64% /var"]

def disksInUnits : List String := [
  "Filesystem      Size  Used Avail Use% Mounted on",
  "/dev/sda1        40G   18G   20G  48% /",
  "tmpfs           3.9G     0  3.9G   0% /dev/shm",
  "/dev/sda2        98G   59G   35G  64% /var"]

def load : List String := [
  "top - 09:15:42 up 1:15,  1 user,  load average: 0.15, 0.10, 0.05",
  "Tasks:  98 total,   1 running,  97 sleeping,   0 stopped,   0 zombie",
  "%Cpu(s):  2.3 us,  0.7 sy,  0.0 ni, 96.8 id,  0.2 wa,  0.0 hi,  0.0 si",
  "MiB Mem :   7961.0 total,   3375.8 free,   2290.2 used,   2295.1 buff/cache",
  "MiB Swap:   2048.0 total,   2048.0 free,      0.0 used.   5304.8 avail Mem",
  "",
  "    PID USER      PR  NI    VIRT    RES    SHR S  %CPU  %MEM     TIME+ COMMAND",
  "    702 mysql     20   0 1732144 337920  35840 S   0.5   4.1   0:42.17 mysqld",
  "    611 www-data  20   0   55280   8448   5632 S   0.1   0.1   0:01.03 nginx",
  "      1 root      20   0  167744  11520   8320 S   0.0   0.1   0:02.51 systemd",
  "   1042 user      20   0   10144   5376   3584 S   0.0   0.1   0:00.04 bash"]

def interfaces : List String := [
  "eth0: flags=4163<UP,BROADCAST,RUNNING,MULTICAST>  mtu 1500",
  "        inet 192.168.1.100  netmask 255.255.255.0  broadcast 192.168.1.255",
  "        inet6 fe80::a00:27ff:fe4e:66a1  prefixlen 64  scopeid 0x20<link>",
  "        ether 08:00:27:4e:66:a1  txqueuelen 1000  (Ethernet)",
  "        RX packets 48213  bytes 52138812 (52.1 MB)",
  "        TX packets 21034  bytes 2843310 (2.8 MB)",
  "",
  "lo: flags=73<UP,LOOPBACK,RUNNING>  mtu 65536",
  "        inet 127.0.0.1  netmask 255.0.0.0",
  "        inet6 ::1  prefixlen 128  scopeid 0x10<host>",
  "        loop  txqueuelen 1000  (Local Loopback)",
  "        RX packets 512  bytes 43008 (43.0 KB)",
  "        TX packets 512  bytes 43008 (43.0 KB)"]

def replies (host : String) : List String := [
  s!"PING {host} (127.0.0.1) 56(84) bytes of data.",
  s!"64 bytes from {host} (127.0.0.1): icmp_seq=1 ttl=64 time=0.045 ms",
  s!"64 bytes from {host} (127.0.0.1): icmp_seq=2 ttl=64 time=0.052 ms",
  s!"64 bytes from {host} (127.0.0.1): icmp_seq=3 ttl=64 time=0.048 ms",
  s!"64 bytes from {host} (127.0.0.1): icmp_seq=4 ttl=64 time=0.050 ms",
  "",
  s!"--- {host} ping statistics ---",
  "4 packets transmitted, 4 received, 0% packet loss, time 3004ms",
  "rtt min/avg/max/mdev = 0.045/0.048/0.052/0.002 ms"]

end PuzzleShell.Shell
